import LiveRules.Proofs.Files.Places
import LiveRules.Proofs.Files.Spelling
import Mathlib.Data.List.Induction

/-!
# Canonical places

The canonical place of a path is meant to be a fixed point: spelled out, it has itself for
its canonical place. That of a path that leads somewhere is one, since all links have been
followed. Of any other path the dots are cleaned up by its text, the directory is resolved
and the last name is kept. Where there is a link under that name, the place is not fixed: its
own canonical place is where the link leads. All other canonical places are fixed.
-/
namespace LiveRules.Files.Tree
variable {t : Tree} {path : String} {here loc dir q : Location} {node : Node} {name : String}

/-! ## Trees that a file system can hold -/

/-- Everything stands in a directory, under a name that a directory can have. -/
structure Proper (t : Tree) : Prop where
  named : ∀ loc node, t.get? loc = some node → ∀ name ∈ loc,
    IsName name ∧ Char.ofNat 0 ∉ name.toList
  above : ∀ loc node, t.get? loc = some node → t.get? loc.dropLast = some .directory
  cwd : t.get? t.cwd = some .directory

namespace Proper

theorem plain (proper : t.Proper) (there : t.get? loc = some node) : loc.Plain :=
  fun name member => (proper.named loc node there name member).1

theorem directory_of_entry (proper : t.Proper) (there : t.get? (dir ++ [name]) = some node) :
    t.get? dir = some .directory := by
  have above := proper.above _ _ there
  rwa [List.dropLast_concat] at above

/-- What leads to a directory are directories. -/
theorem directory_of_append (proper : t.Proper) {names : List String}
    (there : t.get? (here ++ names) = some .directory) : t.get? here = some .directory := by
  induction names using List.reverseRecOn with
  | nil => rwa [List.append_nil] at there
  | append_singleton names name ih =>
      rw [← List.append_assoc] at there
      exact ih (proper.directory_of_entry there)

/-- A walk takes the names of a directory without a turn. -/
theorem walk_along (proper : t.Proper) (follow : Bool) (budget : Nat) {names : List String}
    (there : t.get? (here ++ names) = some .directory) (rest : List String) :
    t.walk follow budget here (names ++ rest) = t.walk follow budget (here ++ names) rest := by
  induction names generalizing here with
  | nil => rw [List.nil_append, List.append_nil]
  | cons name names ih =>
      rw [List.append_cons] at there ⊢
      have isName := proper.plain there name (by simp)
      rw [List.cons_append, walk_directory isName.here isName.up (proper.directory_of_append there),
        ih there]

/-- A walk that follows links finds what is in the tree, and no link. -/
theorem get?_of_walk (proper : t.Proper) {budget : Nat} {todo : List String}
    (start : t.get? here = some .directory)
    (ends : t.walk true budget here todo = .found loc node) :
    t.get? loc = some node ∧ ∀ target, node ≠ .link target := by
  fun_induction walk t true budget here todo with
  | case1 => cases ends; exact ⟨start, nofun⟩
  | case2 budget here rest ih => exact ih start ends
  | case3 budget here rest ih => exact ih (proper.above _ _ start) ends
  | case6 _ _ _ _ _ _ _ directory ih => exact ih directory ends
  | case10 here _ _ _ _ _ target _ _ _ _ start' ih =>
      refine ih ?_ ends
      unfold start'
      split
      · rfl
      · exact start
  | case11 _ _ _ _ _ _ _ _ _ final leaf =>
      obtain ⟨rfl, rfl⟩ := Reached.found.inj ends
      exact ⟨leaf, final⟩
  | case7 => simp_all
  | case4 | case5 | case8 | case9 | case12 => cases ends

theorem get?_of_resolve (proper : t.Proper) (found : t.resolve path = .ok loc) :
    ∃ node, t.get? loc = some node ∧ ∀ target, node ≠ .link target := by
  unfold resolve at found
  split at found
  · rename_i loc' node ends
    cases found
    have fine : ∀ cause, t.reach true path ≠ .failed cause := by simp [ends]
    rw [reach_eq_walk fine t rfl] at ends
    refine ⟨node, proper.get?_of_walk ?_ ends⟩
    split
    · rfl
    · exact proper.cwd
  · cases found
  · cases found

end Proper

/-! ## Locations that are spelled out -/

theorem text_ne_empty (loc : Location) : loc.text ≠ "" := by
  intro empty
  have chars := congrArg String.toList empty
  simp [Location.text] at chars

theorem contains_nul_text : loc.text.toList.contains (Char.ofNat 0) = true ↔
    ∃ name ∈ loc, Char.ofNat 0 ∈ name.toList := by
  rw [List.contains_iff_mem, mem_text (by decide)]

/-- Spelling a location out leads along its names. -/
theorem reach_text (follow : Bool) (plain : loc.Plain) (some : loc ≠ [])
    (clean : ∀ name ∈ loc, Char.ofNat 0 ∉ name.toList) :
    t.reach follow loc.text = t.walk follow linkLimit [] loc := by
  have nul : ¬ loc.text.toList.contains (Char.ofNat 0) = true := fun nul =>
    have ⟨name, member, inside⟩ := contains_nul_text.mp nul
    clean name member inside
  rw [reach, if_neg (by simpa using text_ne_empty loc), if_neg nul, isAbsolute_text,
    steps_text plain some, if_pos rfl]

theorem resolve_eq_ok : t.resolve path = .ok loc ↔ ∃ node, t.reach true path = .found loc node := by
  unfold resolve
  cases t.reach true path <;> simp

/-- A location that is resolved is led to along its names, and none of them is refused. -/
theorem walk_of_resolve {names : Location} (plain : names.Plain) (some : names ≠ [])
    (found : t.resolve names.text = .ok loc) :
    (∀ name ∈ names, Char.ofNat 0 ∉ name.toList) ∧
      ∃ node, t.walk true linkLimit [] names = .found loc node := by
  obtain ⟨node, ends⟩ := resolve_eq_ok.mp found
  have clean : ∀ name ∈ names, Char.ofNat 0 ∉ name.toList := by
    intro name member inside
    have nul := contains_nul_text.mpr ⟨name, member, inside⟩
    rw [reach, if_neg (by simpa using text_ne_empty names), if_pos nul] at ends
    cases ends
  exact ⟨clean, node, by rwa [reach_text true plain some clean] at ends⟩

/-- A place that is there, and is no link, is resolved to itself. -/
theorem Proper.resolve_text (proper : t.Proper) (there : t.get? loc = some node)
    (final : ∀ target, node ≠ .link target) : t.resolve loc.text = .ok loc := by
  rcases List.eq_nil_or_concat loc with rfl | ⟨dir, name, rfl⟩
  · exact resolve_root t
  · rw [List.concat_eq_append] at there ⊢
    have isName := proper.plain there name (by simp)
    have clean := fun n member => (proper.named _ _ there n member).2
    rw [resolve_eq_ok, reach_text true (proper.plain there) (by simp) clean,
      proper.walk_along true linkLimit (proper.directory_of_entry there), List.nil_append]
    by_cases directory : node = .directory
    · rw [directory] at there
      exact ⟨_, by rw [walk_directory isName.here isName.up there, walk]⟩
    · exact ⟨node, by rw [walk_leaf isName.here isName.up there directory final]; rfl⟩

/-- Nothing is beneath a file. -/
theorem Proper.walk_beneath (proper : t.Proper) (there : t.get? dir = some node)
    (file : node ≠ .directory) (final : ∀ target, node ≠ .link target) (follow : Bool)
    (budget : Nat) (name : String) :
    t.walk follow budget [] (dir ++ [name]) = .failed .notDirectory := by
  rcases List.eq_nil_or_concat dir with rfl | ⟨above, last, rfl⟩
  · cases there
    exact absurd rfl file
  · rw [List.concat_eq_append] at there ⊢
    have isName := proper.plain there last (by simp)
    rw [List.append_assoc, proper.walk_along follow budget (proper.directory_of_entry there),
      List.nil_append, List.singleton_append, walk_leaf isName.here isName.up there file final]
    rfl

/-- A name in a place that is there is resolved to itself, if at all, unless it is a link. -/
theorem Proper.resolve_entry (proper : t.Proper) (there : t.get? dir = some node)
    (final : ∀ target, node ≠ .link target) (isName : IsName name)
    (unlinked : ∀ target, t.get? (dir ++ [name]) ≠ some (.link target))
    (found : t.resolve (Location.text (dir ++ [name])) = .ok loc) : loc = dir ++ [name] := by
  have plain : Location.Plain (dir ++ [name]) :=
    Lists.forall_append (proper.plain there) isName
  obtain ⟨-, entry, ends⟩ := walk_of_resolve plain (by simp) found
  by_cases directory : node = .directory
  · rw [directory] at there
    have start : t.get? ([] ++ dir) = some .directory := there
    rw [proper.walk_along true linkLimit start, List.nil_append] at ends
    cases last : t.get? (dir ++ [name]) with
    | none =>
        rw [walk_none isName.here isName.up last] at ends
        cases ends
    | some entry' =>
        cases entry' with
        | directory =>
            rw [walk_directory isName.here isName.up last, walk] at ends
            exact (Reached.found.inj ends).1.symm
        | link target => exact absurd last (unlinked target)
        | file | pipe =>
            rw [walk_leaf isName.here isName.up last (by simp) (by simp)] at ends
            exact (Reached.found.inj ends).1.symm
  · rw [proper.walk_beneath there directory final] at ends
    cases ends

/-- The name of a place cannot be found if its directory is not. -/
theorem resolve_beneath {front : Location} {cause : ReadError}
    (plain : Location.Plain (front ++ [name]))
    (fails : t.resolve front.text = .error cause) :
    ∃ cause, t.resolve (Location.text (front ++ [name])) = .error cause := by
  cases found : t.resolve (Location.text (front ++ [name])) with
  | error cause => exact ⟨cause, rfl⟩
  | ok loc =>
      obtain ⟨clean, node, ends⟩ := walk_of_resolve plain (by simp) found
      have some : front ≠ [] := by
        rintro rfl
        cases fails.symm.trans (resolve_root t)
      have plain' : front.Plain := fun n member => plain n (List.mem_append_left _ member)
      have clean' : ∀ n ∈ front, Char.ofNat 0 ∉ n.toList := fun n member =>
        clean n (List.mem_append_left _ member)
      have fine : ∀ cause, t.walk true linkLimit [] (front ++ [name]) ≠ .failed cause := by
        simp [ends]
      obtain ⟨dir, leads⟩ := walk_prefix true (by simp) fine
      rw [← reach_text true plain' some clean'] at leads
      cases fails.symm.trans (resolve_eq_ok.mpr ⟨_, leads⟩)

/-! ## Where paths are placed -/

/-- How a path comes to its canonical place. -/
inductive Placed (t : Tree) (path : String) : Location → Prop
  | resolved {loc : Location} : t.resolve path = .ok loc → Placed t path loc
  /-- The dots of the path lead to the root. -/
  | root {cause : ReadError} : t.resolve path = .error cause → Placed t path []
  /-- Its directory is resolved. -/
  | beside {front dir : Location} {name : String} {cause : ReadError} :
      t.resolve path = .error cause → cleanPath t.cwd path = front ++ [name] →
      t.resolve front.text = .ok dir → Placed t path (dir ++ [name])
  /-- Its directory is not there, either. -/
  | cleaned {front : Location} {name : String} {cause cause' : ReadError} :
      t.resolve path = .error cause → cleanPath t.cwd path = front ++ [name] →
      t.resolve front.text = .error cause' → Placed t path (front ++ [name])

theorem placed_of_canonical (placed : t.canonical path = .ok q) : t.Placed path q := by
  unfold canonical at placed
  cases found : t.resolve path with
  | ok loc =>
      rw [found] at placed
      cases placed
      exact .resolved found
  | error cause =>
      simp only [found] at placed
      split at placed
      · cases placed
      rcases List.eq_nil_or_concat (cleanPath t.cwd path) with root | ⟨front, name, clean⟩
      · simp only [root] at placed
        cases placed
        exact .root found
      · rw [List.concat_eq_append] at clean
        simp only [clean, List.getLast?_concat, List.dropLast_concat] at placed
        cases above : t.resolve (Location.text front) with
        | ok dir =>
            simp only [above] at placed
            cases placed
            exact .beside found clean above
        | error cause' =>
            simp only [above] at placed
            cases placed
            exact .cleaned found clean above

/-- Only the empty path has no place. -/
theorem canonical_isOk (t : Tree) (path : String) :
    (∃ q, t.canonical path = .ok q) ↔ path ≠ "" := by
  unfold canonical
  constructor
  · rintro ⟨q, placed⟩ rfl
    have none : t.resolve "" = .error .notFound := rfl
    simp [none] at placed
  · intro named
    split
    · exact ⟨_, rfl⟩
    · rw [if_neg (by simpa using named)]
      dsimp only
      split
      · exact ⟨_, rfl⟩
      · split <;> exact ⟨_, rfl⟩

/-- A location that cannot be resolved is placed by its directory. -/
theorem canonical_text {front : Location} {cause : ReadError}
    (plain : Location.Plain (front ++ [name]))
    (fails : t.resolve (Location.text (front ++ [name])) = .error cause) :
    t.canonical (Location.text (front ++ [name])) =
      match t.resolve front.text with
      | .ok dir => .ok (dir ++ [name])
      | .error _ => .ok (front ++ [name]) := by
  have named : (Location.text (front ++ [name])).isEmpty = false := by
    simpa using text_ne_empty (front ++ [name])
  simp only [canonical, fails, named, cleanPath_text plain, List.getLast?_concat,
    List.dropLast_concat]
  rfl

/-- There is a link at the place, and it leads somewhere. -/
def LinkAt (t : Tree) (q : Location) : Prop :=
  (∃ target, t.get? q = some (.link target)) ∧ ∃ loc, t.resolve q.text = .ok loc

namespace Placed

theorem plain (proper : t.Proper) (placed : t.Placed path q) : q.Plain := by
  have clean : (cleanPath t.cwd path).Plain := plain_cleanPath (proper.plain proper.cwd) path
  cases placed with
  | resolved found =>
      obtain ⟨node, there, -⟩ := proper.get?_of_resolve found
      exact proper.plain there
  | root => exact nofun
  | beside _ spelled above =>
      obtain ⟨node, there, -⟩ := proper.get?_of_resolve above
      rw [spelled] at clean
      exact Lists.forall_append (proper.plain there) (clean _ (by simp))
  | cleaned _ spelled => rwa [spelled] at clean

/-- What is not resolved stays in its place. -/
theorem canonical_of_unresolved (proper : t.Proper) (placed : t.Placed path q) {cause : ReadError}
    (fails : t.resolve q.text = .error cause) : t.canonical q.text = .ok q := by
  have plain := placed.plain proper
  cases placed with
  | resolved found =>
      obtain ⟨node, there, final⟩ := proper.get?_of_resolve found
      cases fails.symm.trans (proper.resolve_text there final)
  | root => cases fails.symm.trans (resolve_root t)
  | beside _ _ above =>
      obtain ⟨node, there, final⟩ := proper.get?_of_resolve above
      rw [canonical_text plain fails, proper.resolve_text there final]
  | cleaned _ _ above => rw [canonical_text plain fails, above]

/-- What is resolved leads elsewhere exactly if there is a link in its place. -/
theorem eq_iff_of_resolved (proper : t.Proper) (placed : t.Placed path q)
    (found : t.resolve q.text = .ok loc) : loc = q ↔ ¬ t.LinkAt q := by
  constructor
  · rintro rfl ⟨⟨target, link⟩, -⟩
    obtain ⟨node, there, final⟩ := proper.get?_of_resolve found
    exact final target (Option.some.inj (there.symm.trans link))
  · intro unlinked
    have unlinked : ∀ target, t.get? q ≠ some (.link target) := fun target link =>
      unlinked ⟨⟨target, link⟩, loc, found⟩
    have plain := placed.plain proper
    cases placed with
    | resolved known =>
        obtain ⟨node, there, final⟩ := proper.get?_of_resolve known
        exact Except.ok.inj (found.symm.trans (proper.resolve_text there final))
    | root => exact Except.ok.inj (found.symm.trans (resolve_root t))
    | beside _ _ above =>
        obtain ⟨node, there, final⟩ := proper.get?_of_resolve above
        exact proper.resolve_entry there final (plain _ (by simp)) unlinked found
    | cleaned _ _ above =>
        obtain ⟨cause, fails⟩ := resolve_beneath plain above
        cases fails.symm.trans found

/-- A path that is resolved is placed at no link. -/
theorem unresolved (proper : t.Proper) (placed : t.Placed path q) (linked : t.LinkAt q) :
    ∃ cause, t.resolve path = .error cause := by
  cases placed with
  | resolved found =>
      obtain ⟨⟨target, link⟩, -⟩ := linked
      obtain ⟨node, there, final⟩ := proper.get?_of_resolve found
      exact absurd (Option.some.inj (there.symm.trans link)) (final target)
  | root fails | beside fails | cleaned fails => exact ⟨_, fails⟩

end Placed

/-- What the canonical place of a path is like. -/
structure Settled (t : Tree) (path : String) (q : Location) : Prop where
  plain : q.Plain
  absolute : isAbsolute q.text = true
  /-- Neither dots nor steps up are left. -/
  components : components q.text = .root :: q.map .name
  fixed_iff : t.canonical q.text = .ok q ↔ ¬ t.LinkAt q
  /-- With a link in its place, the path itself leads nowhere, but the place leads on to
  another one, which is fixed. -/
  loose : t.LinkAt q → (∃ cause, t.resolve path = .error cause) ∧
    ∃ loc, loc ≠ q ∧ t.resolve q.text = .ok loc ∧ t.canonical q.text = .ok loc ∧
      t.canonical loc.text = .ok loc
  /-- Other places that lead to the same one are links. -/
  shared : ∀ path' q' loc, t.canonical path' = .ok q' → t.resolve q.text = .ok loc →
    t.resolve q'.text = .ok loc → q = q' ∨ t.LinkAt q ∨ t.LinkAt q'

/-- Every path but the empty one has a canonical place. It is fixed unless it is a link that
the path itself does not reach. -/
theorem canonical_settles (proper : t.Proper) (path : String) :
    ((∃ q, t.canonical path = .ok q) ↔ path ≠ "") ∧
      ∀ q, t.canonical path = .ok q → t.Settled path q := by
  refine ⟨canonical_isOk t path, fun q known => ?_⟩
  have placed := placed_of_canonical known
  have plain := placed.plain proper
  refine ⟨plain, isAbsolute_text q, components_text plain, ?_, fun linked => ?_, ?_⟩
  · cases found : t.resolve q.text with
    | ok loc =>
        rw [canonical_eq, found, ← placed.eq_iff_of_resolved proper found]
        exact ⟨Except.ok.inj, congrArg _⟩
    | error cause =>
        refine iff_of_true (placed.canonical_of_unresolved proper found) fun ⟨_, loc, leads⟩ => ?_
        cases found.symm.trans leads
  · have ⟨⟨target, link⟩, loc, found⟩ := linked
    obtain ⟨node, there, final⟩ := proper.get?_of_resolve found
    refine ⟨placed.unresolved proper linked, loc, fun same => ?_, found, by rw [canonical_eq, found],
      by rw [canonical_eq, proper.resolve_text there final]⟩
    exact (placed.eq_iff_of_resolved proper found).mp same linked
  · intro path' q' loc known' found found'
    have placed' := placed_of_canonical known'
    by_cases linked : t.LinkAt q
    · exact .inr (.inl linked)
    by_cases linked' : t.LinkAt q'
    · exact .inr (.inr linked')
    have same := (placed.eq_iff_of_resolved proper found).mpr linked
    have same' := (placed'.eq_iff_of_resolved proper found').mpr linked'
    exact .inl (same.symm.trans same')

/-- A file and a link to it, in the current directory. -/
def linked : Tree where
  nodes := [(["d"], .directory), (["d", "real"], .file (.text "x")), (["d", "link"], .link "real")]
  cwd := ["d"]

theorem linked_cases (there : linked.get? loc = some node) :
    loc ∈ [[], ["d"], ["d", "real"], ["d", "link"]] := by
  by_contra other
  simp only [List.mem_cons, List.not_mem_nil, or_false, not_or] at other
  obtain ⟨root, d, real, link⟩ := other
  simp [get?, linked, root, List.lookup_cons, beq_false_of_ne d, beq_false_of_ne real,
    beq_false_of_ne link] at there

theorem linked_proper : linked.Proper where
  named loc node there := by
    have names : ∀ loc ∈ [[], ["d"], ["d", "real"], ["d", "link"]], ∀ name ∈ loc,
        (name ≠ "" ∧ name ≠ "." ∧ name ≠ ".." ∧ '/' ∉ name.toList) ∧
          Char.ofNat 0 ∉ name.toList := by decide
    intro name member
    have ⟨⟨named, here, up, single⟩, clean⟩ := names loc (linked_cases there) name member
    exact ⟨⟨named, here, up, single⟩, clean⟩
  above loc node there := by
    have above : ∀ loc ∈ [[], ["d"], ["d", "real"], ["d", "link"]],
        linked.get? loc.dropLast = some .directory := by decide
    exact above loc (linked_cases there)
  cwd := rfl

theorem linked_unresolved : linked.resolve "missing/../link" = .error .notFound := by
  have steps : steps "missing/../link" = ["missing", "..", "link"] := by decide +kernel
  have relative : isAbsolute "missing/../link" = false := by decide +kernel
  have none : linked.get? (["d"] ++ ["missing"]) = none := by decide
  have walked : linked.reach true "missing/../link" =
      linked.walk true linkLimit ["d"] ["missing", "..", "link"] := by
    rw [reach, steps, relative]
    rfl
  rw [resolve, walked, walk_none (by simp) (by simp) none]
  rfl

theorem linked_leads : linked.resolve (Location.text ["d", "link"]) = .ok ["d", "real"] := by
  have link : linked.get? ["d", "link"] = some (.link "real") := by decide
  have file : linked.get? (["d"] ++ ["real"]) = some (.file (.text "x")) := by decide
  have directory : linked.get? ([] ++ ["d"]) = some .directory := by decide
  have steps : steps "real" = ["real"] := by decide +kernel
  have clean := fun n member => (linked_proper.named _ _ link n member).2
  have walked : linked.walk true linkLimit [] ["d", "link"] =
      linked.walk true 39 ["d"] (Files.steps "real" ++ []) := by
    rw [walk_directory (by simp) (by simp) directory, walk_link (by simp) (by simp) link]
    rfl
  refine resolve_eq_ok.mpr ⟨.file (.text "x"), ?_⟩
  rw [reach_text true (linked_proper.plain link) (by simp) clean, walked, steps, List.append_nil,
    walk_leaf (by simp) (by simp) file nofun nofun]
  rfl

/-- The missing directory hides where the path leads, so it is placed at the link, whose own
place is that of the file. -/
theorem canonical_settles_linked : linked.Proper ∧
    linked.canonical "missing/../link" = .ok ["d", "link"] ∧
    linked.canonical (Location.text ["d", "link"]) = .ok ["d", "real"] ∧
    linked.canonical (Location.text ["d", "real"]) = .ok ["d", "real"] := by
  have clean : cleanPath linked.cwd "missing/../link" = ["d", "link"] := by decide +kernel
  have there : linked.get? ["d"] = some .directory := by decide
  have directory := linked_proper.resolve_text there nofun
  have placed : linked.canonical "missing/../link" = .ok ["d", "link"] := by
    rw [canonical, linked_unresolved, clean]
    simp [directory]
  have settled := (canonical_settles linked_proper "missing/../link").2 _ placed
  have link : linked.LinkAt ["d", "link"] := ⟨⟨"real", by decide⟩, _, linked_leads⟩
  obtain ⟨-, loc, -, found, second, fixed⟩ := settled.loose link
  obtain rfl := Except.ok.inj (linked_leads.symm.trans found)
  exact ⟨linked_proper, placed, second, fixed⟩

end LiveRules.Files.Tree
