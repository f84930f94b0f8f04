import LiveRules.Files.Tree
import LiveRules.Proofs.Lists

/-!
# Walks through a changed tree

A place is found again by the same path once its file has been written or
replaced. For a replaced link this needs care: the path may lead through that very
link before it ends there.
-/
namespace LiveRules.Files.Tree

-- The proofs below go by the cases of a walk, which are derived here once for all of them.
attribute [elab_as_elim] walk.induct_unfolding

theorem get?_set_same {t : Tree} {loc : Location} {node : Node} (named : loc ≠ []) :
    (t.set loc node).get? loc = some node := by
  simp [get?, set, named]

theorem get?_set_other {t : Tree} {loc other : Location} {node : Node} (h : other ≠ loc) :
    (t.set loc node).get? other = t.get? other := by
  have away : (other == loc) = false := by simpa using h
  simp only [get?, set, List.lookup_cons, away, Lists.lookup_filter_ne t.nodes h]

section Names
variable {t : Tree} {follow : Bool} {budget : Nat} {here : Location} {name : String}
  {rest : List String} (dot : name = "." → False) (dots : name = ".." → False)

include dot dots

theorem walk_none (none : t.get? (here ++ [name]) = none) :
    t.walk follow budget here (name :: rest) =
      if rest.isEmpty then .missing (here ++ [name]) else .failed .notFound := by
  rw [walk.eq_4 _ _ _ _ _ _ dot dots, none]

theorem walk_directory (directory : t.get? (here ++ [name]) = some .directory) :
    t.walk follow budget here (name :: rest) = t.walk follow budget (here ++ [name]) rest := by
  rw [walk.eq_4 _ _ _ _ _ _ dot dots, directory]

theorem walk_link {target : String} (link : t.get? (here ++ [name]) = some (.link target)) :
    t.walk follow budget here (name :: rest) =
      if rest.isEmpty && !follow then .found (here ++ [name]) (.link target)
      else match budget with
        | 0 => .failed .linkLoop
        | budget + 1 =>
            if target.isEmpty then .failed .notFound
            else t.walk follow budget (if isAbsolute target then [] else here)
              (steps target ++ rest) := by
  have first := walk.eq_4 t follow budget here name rest dot dots
  rw [link] at first
  exact first

theorem walk_leaf {node : Node} (leaf : t.get? (here ++ [name]) = some node)
    (plain : node = .directory → False) (final : ∀ target, node = .link target → False) :
    t.walk follow budget here (name :: rest) =
      if rest.isEmpty then .found (here ++ [name]) node else .failed .notDirectory := by
  rw [walk.eq_4 _ _ _ _ _ _ dot dots, leaf]
  cases node with
  | directory => exact (plain rfl).elim
  | link target => exact (final target rfl).elim
  | file | pipe => rfl

end Names

/-- What a walk finds is in the tree. -/
theorem get?_of_walk (t : Tree) (follow : Bool) (budget : Nat) (here : Location)
    (todo : List String) :
    match t.walk follow budget here todo with
    | .found loc node => node = .directory ∨ t.get? loc = some node
    | .missing loc => t.get? loc = none
    | .failed _ => True := by
  fun_induction walk t follow budget here todo <;> simp_all

/-- Where a file can be written: at a file, or at a place that is missing. -/
def Open (r : Reached) (loc : Location) : Prop :=
  r = .missing loc ∨ ∃ content, r = .found loc (.file content)

theorem get?_of_open {t : Tree} {follow : Bool} {budget : Nat} {here loc : Location}
    {todo : List String} (ends : Open (t.walk follow budget here todo) loc) :
    t.get? loc = none ∨ ∃ content, t.get? loc = some (.file content) := by
  have holds := get?_of_walk t follow budget here todo
  rcases ends with ends | ⟨content, ends⟩
  · exact .inl (by simpa [ends] using holds)
  · exact .inr ⟨content, by simpa [ends] using holds⟩

/-- Writing a file leaves the way to it as it was. -/
theorem walk_set {t : Tree} {follow : Bool} {budget : Nat} {here loc : Location}
    {todo : List String} (content : Content)
    (ends : Open (t.walk follow budget here todo) loc) :
    (t.set loc (.file content)).walk true budget here todo = .found loc (.file content) := by
  have last := get?_of_open ends
  fun_induction walk t follow budget here todo with
  | case1 => simp [Open] at ends
  | case2 budget here rest ih => rw [walk]; exact ih ends
  | case3 budget here rest ih => rw [walk]; exact ih ends
  | case4 budget here name rest dot dots loc' missing atEnd =>
      obtain rfl : loc = loc' := by simpa [Open, eq_comm] using ends
      rw [walk_leaf dot dots (get?_set_same (by simp)) (by simp) (by simp), if_pos atEnd]
  | case6 budget here name rest dot dots loc' directory ih =>
      have other : loc' ≠ loc := by
        rintro rfl
        simp [directory] at last
      rw [walk_directory dot dots (by rw [get?_set_other other, directory])]
      exact ih ends
  | case10 here name rest dot dots loc' target link more budget named start ih =>
      have other : loc' ≠ loc := by
        rintro rfl
        simp [link] at last
      rw [walk_link dot dots (by rw [get?_set_other other, link])]
      simp only [Bool.not_true, Bool.and_false, Bool.false_eq_true, if_false, named]
      exact ih ends
  | case11 budget here name rest dot dots loc' node _ _ node' atEnd =>
      obtain rfl : loc = loc' := by
        rcases ends with ends | ⟨old, ends⟩ <;> simp at ends
        exact ends.1.symm
      rw [walk_leaf dot dots (get?_set_same (by simp)) (by simp) (by simp), if_pos atEnd]
  | case5 | case7 | case8 | case9 | case12 => simp [Open] at ends

/-- With less of a budget a walk ends as before, unless it runs out of links. -/
theorem walk_budget (t : Tree) (follow : Bool) (budget : Nat) (here : Location)
    (todo : List String) : ∀ more, budget ≤ more →
      t.walk follow budget here todo = t.walk follow more here todo ∨
        t.walk follow budget here todo = .failed .linkLoop := by
  fun_induction walk t follow budget here todo with
  | case1 => exact fun more le => .inl (by rw [walk])
  | case2 budget here rest ih => simpa only [walk] using ih
  | case3 budget here rest ih => simpa only [walk] using ih
  | case4 _ _ _ _ dot dots loc none atEnd | case5 _ _ _ _ dot dots loc none atEnd =>
      exact fun more le => .inl (by rw [walk_none dot dots none]; simp [atEnd, loc])
  | case6 _ _ _ _ dot dots _ directory ih =>
      intro more le
      rw [walk_directory dot dots directory]
      exact ih more le
  | case7 _ _ _ _ dot dots loc _ link atEnd =>
      exact fun more le => .inl (by rw [walk_link dot dots link]; simp [atEnd, loc])
  | case8 => exact fun more le => .inr rfl
  | case9 _ _ _ dot dots _ _ link on budget none =>
      intro more le
      obtain ⟨more, rfl⟩ : ∃ m, more = m + 1 := ⟨more - 1, by omega⟩
      exact .inl (by rw [walk_link dot dots link]; simp [on, none])
  | case10 here name rest dot dots loc target link on budget named start ih =>
      intro more le
      obtain ⟨more, rfl⟩ : ∃ m, more = m + 1 := ⟨more - 1, by omega⟩
      rw [walk_link dot dots link]
      simp only [on, named]
      exact ih more (by omega)
  | case11 _ _ _ _ dot dots loc _ plain final leaf atEnd
  | case12 _ _ _ _ dot dots loc _ plain final leaf atEnd =>
      exact fun more le => .inl (by rw [walk_leaf dot dots leaf plain final]; simp [atEnd, loc])

/-- The walk to a later name goes through directories. -/
theorem walk_prefix {t : Tree} (follow : Bool) {budget : Nat} {here : Location}
    {todo later : List String} (some : later ≠ [])
    (fine : ∀ cause, t.walk follow budget here (todo ++ later) ≠ .failed cause) :
    ∃ dir, t.walk true budget here todo = .found dir .directory := by
  have more (rest : List String) : (rest ++ later).isEmpty = false := by
    simp [List.isEmpty_eq_false_iff, some]
  fun_induction walk t true budget here todo with
  | case1 budget here => exact ⟨here, rfl⟩
  | case2 budget here rest ih => exact ih (by simpa [walk] using fine)
  | case3 budget here rest ih => exact ih (by simpa [walk] using fine)
  | case4 _ _ _ _ dot dots _ none | case5 _ _ _ _ dot dots _ none =>
      rw [List.cons_append, walk_none dot dots none] at fine
      simp [more] at fine
  | case6 _ _ _ _ dot dots _ directory ih =>
      rw [List.cons_append, walk_directory dot dots directory] at fine
      exact ih fine
  | case10 here name rest dot dots loc target link _ budget named start ih =>
      rw [List.cons_append, walk_link dot dots link] at fine
      simp only [more, Bool.false_and, Bool.false_eq_true, if_false, named] at fine
      exact ih (by simpa [start] using fine)
  | case7 _ _ _ _ dot dots _ _ link | case8 _ _ _ dot dots _ _ link
  | case9 _ _ _ dot dots _ _ link =>
      rw [List.cons_append, walk_link dot dots link] at fine
      simp_all
  | case11 _ _ _ _ dot dots _ _ plain final leaf | case12 _ _ _ _ dot dots _ _ plain final leaf =>
      rw [List.cons_append, walk_leaf dot dots leaf plain final] at fine
      simp [more] at fine

/-- Following a link makes no difference where there is none at the end. -/
theorem walk_follow {t : Tree} {budget : Nat} {here loc : Location} {todo : List String}
    {node : Node} (ends : t.walk false budget here todo = .found loc node)
    (final : ∀ target, node ≠ .link target) :
    t.walk true budget here todo = .found loc node := by
  fun_induction walk t false budget here todo with
  | case1 => rwa [walk]
  | case2 budget here rest ih => rw [walk]; exact ih ends
  | case3 budget here rest ih => rw [walk]; exact ih ends
  | case6 _ _ _ _ dot dots _ directory ih =>
      rw [walk_directory dot dots directory]
      exact ih ends
  | case7 _ _ _ _ _ _ _ target =>
      obtain ⟨-, rfl⟩ : _ ∧ _ = node := by simpa using ends
      exact absurd rfl (final target)
  | case10 here name rest dot dots loc' target link _ budget named start ih =>
      rw [walk_link dot dots link]
      simpa [named, start] using ih ends
  | case11 _ _ _ _ dot dots _ _ plain leaf found atEnd =>
      rw [walk_leaf dot dots found plain leaf, if_pos atEnd]
      exact ends
  | case4 | case5 | case8 | case9 | case12 => simp at ends

/-- A walk that fails does so before it could follow a link at the end. -/
theorem walk_failed {t : Tree} {budget : Nat} {here : Location} {todo : List String}
    {cause : ReadError} (fails : t.walk false budget here todo = .failed cause) :
    t.walk true budget here todo = .failed cause := by
  fun_induction walk t false budget here todo with
  | case2 budget here rest ih => rw [walk]; exact ih fails
  | case3 budget here rest ih => rw [walk]; exact ih fails
  | case5 _ _ _ _ dot dots _ none more =>
      rw [walk_none dot dots none, if_neg more]
      exact fails
  | case6 _ _ _ _ dot dots _ directory ih =>
      rw [walk_directory dot dots directory]
      exact ih fails
  | case8 _ _ _ dot dots _ _ link =>
      rw [walk_link dot dots link]
      simpa using fails
  | case9 _ _ _ dot dots _ _ link _ _ none =>
      rw [walk_link dot dots link]
      simpa [none] using fails
  | case10 here name rest dot dots loc target link _ budget named start ih =>
      rw [walk_link dot dots link]
      simpa [named, start] using ih fails
  | case12 _ _ _ _ dot dots _ _ plain leaf found more =>
      rw [walk_leaf dot dots found plain leaf, if_neg more]
      exact fails
  | case1 | case4 | case7 | case11 => simp at fails

/-- A walk that stops at a link goes on from there if it follows it. -/
theorem walk_from_link {t : Tree} {budget : Nat} {here loc : Location} {todo : List String}
    {target : String} (ends : t.walk false budget here todo = .found loc (.link target)) :
    ∃ dir name left, loc = dir ++ [name] ∧ left ≤ budget ∧
      t.walk true budget here todo = t.walk true left dir [name] := by
  fun_induction walk t false budget here todo with
  | case2 budget here rest ih => rw [walk]; exact ih ends
  | case3 budget here rest ih => rw [walk]; exact ih ends
  | case6 _ _ _ _ dot dots _ directory ih =>
      rw [walk_directory dot dots directory]
      exact ih ends
  | case7 budget here name rest dot dots loc' target' link atEnd =>
      obtain rfl : rest = [] := by simpa using atEnd
      obtain ⟨rfl, -⟩ : loc' = loc ∧ _ := by simpa using ends
      exact ⟨here, name, budget, rfl, Nat.le_refl _, rfl⟩
  | case10 here name rest dot dots loc' target' link _ budget named start ih =>
      obtain ⟨dir, last, left, hloc, le, same⟩ := ih ends
      refine ⟨dir, last, left, hloc, by omega, ?_⟩
      rw [walk_link dot dots link]
      simpa [named, start] using same
  | case1 | case4 | case5 | case8 | case9 | case11 | case12 => simp_all

/-- A file in the place of a link is found by the path that led to the link. The
path may lead through the link as well, but then it leads on to a directory. -/
theorem walk_set_link {t : Tree} {budget : Nat} {here loc : Location} {todo : List String}
    {target : String} (content : Content)
    (ends : t.walk false budget here todo = .found loc (.link target))
    (file : ∀ dir, t.walk true budget here todo ≠ .found dir .directory)
    (enough : t.walk true budget here todo ≠ .failed .linkLoop) :
    (t.set loc (.file content)).walk true budget here todo = .found loc (.file content) := by
  have last : t.get? loc = some (.link target) := by
    have holds := get?_of_walk t false budget here todo
    simpa [ends] using holds
  fun_induction walk t false budget here todo with
  | case2 budget here rest ih => rw [walk] at file enough ⊢; exact ih ends file enough
  | case3 budget here rest ih => rw [walk] at file enough ⊢; exact ih ends file enough
  | case6 budget here name rest dot dots loc' directory ih =>
      have other : loc' ≠ loc := by
        rintro rfl
        simp [directory] at last
      rw [walk_directory dot dots directory] at file enough
      rw [walk_directory dot dots (by rw [get?_set_other other, directory])]
      exact ih ends file enough
  | case7 budget here name rest dot dots loc' target' link atEnd =>
      obtain ⟨rfl, -⟩ : loc' = loc ∧ _ := by simpa using ends
      have empty : rest.isEmpty = true := by simp_all
      rw [walk_leaf dot dots (get?_set_same (by simp)) (by simp) (by simp), if_pos empty]
  | case10 here name rest dot dots loc' target' link on budget named start ih =>
      have more : rest ≠ [] := by simpa using on
      have next : t.walk true (budget + 1) here (name :: rest) =
          t.walk true budget start (steps target' ++ rest) := by
        rw [walk_link dot dots link]
        simp [named, start]
      rw [next] at file enough
      by_cases through : loc' = loc
      · -- The path comes back to a link that leads to a directory.
        obtain ⟨dir, inside⟩ : ∃ dir, t.walk true budget start (steps target') =
            .found dir .directory :=
          walk_prefix false more (by simp [ends])
        obtain ⟨back, name', left, hloc, le, again⟩ := walk_from_link ends
        obtain ⟨rfl, rfl⟩ : here = back ∧ name = name' := by
          simpa [loc'] using through.trans hloc
        rw [again, walk_link dot dots link] at file enough
        cases left with
        | zero => simp at enough
        | succ left =>
            -- With the links left by now it leads there too, or uses them up.
            have shorter := walk_budget t true left start (steps target') budget (by omega)
            rw [inside] at shorter
            simp only [List.isEmpty_nil, Bool.not_true, Bool.and_false, Bool.false_eq_true,
              if_false, named, List.append_nil] at file enough
            rcases shorter with directory | loop
            · exact absurd directory (file dir)
            · exact absurd loop enough
      · rw [walk_link dot dots (by rw [get?_set_other through, link])]
        simp only [Bool.not_true, Bool.and_false, Bool.false_eq_true, if_false, named]
        exact ih ends file enough
  | case1 | case4 | case5 | case8 | case9 | case11 | case12 => simp_all

/-- The path has a text file that reads `s`, or no file at all, which reads as the
empty text. -/
inductive Reads (t : Tree) (path : String) : String → Prop
  | file {loc : Location} {s : String} :
      t.reach true path = .found loc (.file (.text s)) → Reads t path s
  | none : t.readText path = .error .notFound → Reads t path ""

/-- The path has a text file that reads `s`. -/
def Holds (t : Tree) (path s : String) : Prop :=
  ∃ loc, t.reach true path = .found loc (.file (.text s))

theorem Holds.reads {t : Tree} {path s : String} (holds : t.Holds path s) : t.Reads path s :=
  .file holds.choose_spec

theorem Holds.readText {t : Tree} {path s : String} (holds : t.Holds path s) :
    t.readText path = .ok s := by
  obtain ⟨loc, found⟩ := holds
  simp only [Tree.readText, Tree.readContent, found]

theorem Reads.unique {t : Tree} {path a b : String} (first : t.Reads path a)
    (second : t.Reads path b) : a = b := by
  cases first <;> cases second <;> simp_all [readText, readContent]

/-- Nobody has to wait to write to a text. -/
theorem Reads.appendWaits {t : Tree} {path s : String} (reads : t.Reads path s) :
    t.appendWaits path = false := by
  cases reads with
  | file found => simp only [Tree.appendWaits, found]
  | none missing =>
      unfold Tree.appendWaits
      split
      · rename_i found
        simp [readText, readContent, found] at missing
      · rfl

theorem Reads.eq_of_readText {t : Tree} {path s s' : String} (reads : t.Reads path s)
    (read : t.readText path = .ok s') : s = s' := by
  cases reads with
  | file found =>
      rw [Holds.readText ⟨_, found⟩] at read
      exact Except.ok.inj read
  | none missing =>
      rw [missing] at read
      cases read

theorem reach_eq_walk {t : Tree} {path : String} {follow : Bool}
    (fine : ∀ cause, t.reach follow path ≠ .failed cause) (t' : Tree) (cwd : t'.cwd = t.cwd)
    (follow' : Bool) :
    t'.reach follow' path =
      t'.walk follow' linkLimit (if isAbsolute path then [] else t.cwd) (steps path) := by
  unfold reach at fine ⊢
  split at fine
  · exact absurd rfl (fine _)
  split at fine
  · exact absurd rfl (fine _)
  · rename_i named clean
    rw [if_neg named, if_neg clean, cwd]

theorem resolve_root (t : Tree) : t.resolve "/" = .ok [] := by
  have steps : steps "/" = ["."] := by decide +kernel
  have absolute : isAbsolute "/" = true := by decide +kernel
  simp [resolve, reach, steps, absolute, walk]

theorem reach_set {t : Tree} {path : String} {follow : Bool} {loc : Location}
    (content : Content) (ends : Open (t.reach follow path) loc) :
    (t.set loc (.file content)).reach true path = .found loc (.file content) := by
  have fine : ∀ cause, t.reach follow path ≠ .failed cause := by
    rcases ends with ends | ⟨old, ends⟩ <;> simp [ends]
  rw [reach_eq_walk fine (t.set loc (.file content)) rfl]
  rw [reach_eq_walk fine t rfl] at ends
  exact walk_set content ends

theorem reach_failed {t : Tree} {path : String} {cause : ReadError}
    (fails : t.reach false path = .failed cause) : t.reach true path = .failed cause := by
  unfold reach at fails ⊢
  split
  · rwa [if_pos ‹_›] at fails
  · rw [if_neg ‹_›] at fails
    split
    · rwa [if_pos ‹_›] at fails
    · rw [if_neg ‹_›] at fails
      exact walk_failed fails

/-- The path has a file, or a file can be made there. -/
def Writable (t : Tree) (path : String) : Prop := ∃ loc, Open (t.reach true path) loc

theorem Holds.writable {t : Tree} {path s : String} (holds : t.Holds path s) : t.Writable path :=
  ⟨_, .inr ⟨_, holds.choose_spec⟩⟩

theorem Writable.append {t : Tree} {path : String} (writable : t.Writable path) (text : String) :
    ∃ out, t.append path text = .ok out := by
  obtain ⟨loc, ends | ⟨content, ends⟩⟩ := writable
  · exact ⟨_, by simp only [Tree.append, ends]; rfl⟩
  · exact ⟨_, by simp only [Tree.append, ends]; rfl⟩

/-- A file can be replaced wherever it could be written. -/
theorem Writable.replace {t : Tree} {path : String} (writable : t.Writable path) (text : String) :
    ∃ out, t.replace path text = .ok out := by
  obtain ⟨loc, ends⟩ := writable
  cases final : t.reach false path with
  | failed cause =>
      have fails := reach_failed final
      rcases ends with ends | ⟨content, ends⟩ <;> simp [ends] at fails
  | missing there => exact ⟨_, by simp only [Tree.replace, final]; rfl⟩
  | found there node =>
      cases node with
      | file | link | pipe => exact ⟨_, by simp only [Tree.replace, final]; rfl⟩
      | directory =>
          have fine : ∀ cause, t.reach false path ≠ .failed cause := by simp [final]
          have same : t.reach true path = .found there .directory := by
            rw [reach_eq_walk fine t rfl] at final ⊢
            exact walk_follow final (by simp)
          rcases ends with ends | ⟨content, ends⟩ <;> simp [ends] at same

/-- A missing file that is made by an append could have been replaced as well. -/
theorem Reads.writable {t : Tree} {path old text : String} {out : Tree × List Change}
    (reads : t.Reads path old) (done : t.append path text = .ok out) : t.Writable path := by
  cases reads with
  | file found => exact ⟨_, .inr ⟨_, found⟩⟩
  | none missing =>
      simp only [readText, readContent] at missing
      simp only [Tree.append] at done
      cases ends : t.reach true path with
      | failed cause => simp [ends] at done
      | missing loc => exact ⟨loc, .inl ends⟩
      | found loc node =>
          rw [ends] at missing
          cases node with
          | file content => cases content <;> simp at missing
          | directory | link | pipe => simp at missing

/-- After an append there is a file. -/
theorem Reads.holds_append {t t' : Tree} {path old text : String} {changes : List Change}
    (reads : t.Reads path old) (done : t.append path text = .ok (t', changes)) :
    t'.Holds path (old ++ text) := by
  obtain ⟨loc, ends⟩ := reads.writable done
  cases reads with
  | file found =>
      simp only [Tree.append, found, Content.append, Except.ok.injEq, Prod.mk.injEq] at done
      obtain ⟨rfl, -⟩ := done
      exact ⟨_, reach_set _ (.inr ⟨_, found⟩)⟩
  | none missing =>
      rw [String.empty_append]
      rcases ends with ends | ⟨content, ends⟩
      · simp only [Tree.append, ends, Except.ok.injEq, Prod.mk.injEq] at done
        obtain ⟨rfl, -⟩ := done
        exact ⟨_, reach_set _ (.inl ends)⟩
      · cases content <;> simp [readText, readContent, ends] at missing

theorem Reads.append {t t' : Tree} {path old text : String} {changes : List Change}
    (reads : t.Reads path old) (done : t.append path text = .ok (t', changes)) :
    t'.Reads path (old ++ text) :=
  (reads.holds_append done).reads

/-- After a replacement there is a file. -/
theorem Reads.holds_replace {t t' : Tree} {path old text : String} {changes : List Change}
    (reads : t.Reads path old) (done : t.replace path text = .ok (t', changes)) :
    t'.Holds path text := by
  have file : ∀ dir, t.reach true path ≠ .found dir .directory := by
    intro dir ends
    cases reads <;> simp_all [readText, readContent]
  have enough : t.reach true path ≠ .failed .linkLoop := by
    intro ends
    cases reads <;> simp_all [readText, readContent]
  simp only [Tree.replace] at done
  cases ends : t.reach false path with
  | failed cause => simp [ends] at done
  | missing loc =>
      simp only [ends, Except.ok.injEq, Prod.mk.injEq] at done
      obtain ⟨rfl, -⟩ := done
      exact ⟨_, reach_set _ (.inl ends)⟩
  | found loc node =>
      rw [ends] at done
      cases node with
      | directory => simp at done
      | file content =>
          simp only [Except.ok.injEq, Prod.mk.injEq] at done
          obtain ⟨rfl, -⟩ := done
          exact ⟨_, reach_set _ (.inr ⟨content, ends⟩)⟩
      | link target =>
          simp only [Except.ok.injEq, Prod.mk.injEq] at done
          obtain ⟨rfl, -⟩ := done
          have fine : ∀ cause, t.reach false path ≠ .failed cause := by simp [ends]
          refine ⟨loc, ?_⟩
          simp only [reach_eq_walk fine t rfl] at ends file enough
          rw [reach_eq_walk fine (t.set loc _) rfl]
          exact walk_set_link _ ends file enough
      | pipe id =>
          have fine : ∀ cause, t.reach false path ≠ .failed cause := by simp [ends]
          have same : t.reach true path = .found loc (.pipe id) := by
            rw [reach_eq_walk fine t rfl] at ends ⊢
            exact walk_follow ends (by simp)
          cases reads <;> simp_all [readText, readContent]

theorem Reads.replace {t t' : Tree} {path old text : String} {changes : List Change}
    (reads : t.Reads path old) (done : t.replace path text = .ok (t', changes)) :
    t'.Reads path text :=
  (reads.holds_replace done).reads

end LiveRules.Files.Tree
