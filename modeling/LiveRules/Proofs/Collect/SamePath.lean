import LiveRules.Proofs.Collect.Ownership
import LiveRules.Proofs.Files.Places

/-!
# Two handles of one path

Stores are shared by the canonical place that a path has when its handle is asked for.
A second handle is one of the same store as long as that place is the same. It stays
the same while stores do nothing but write, unless the path leads to a missing file in
another place than the canonical one: then it becomes another when that file is made,
if only by the store of the path itself.
-/
namespace LiveRules.Files

/-- Any number of writes. -/
inductive Tree.Writes (t : Tree) : Tree → Prop
  | none : Writes t t
  | more {t' t'' : Tree} : Writes t t' → t'.Written t'' → Writes t t''

theorem Tree.Writes.trans {t t' t'' : Tree} (first : t.Writes t') (rest : t'.Writes t'') :
    t.Writes t'' := by
  induction rest with
  | none => exact first
  | more _ written ih => exact ih.more written

theorem Tree.Plain.writes {t t' : Tree} {path : String} (plain : t.Plain path)
    (writes : t.Writes t') : t'.Plain path := by
  induction writes with
  | none => exact plain
  | more _ written ih => exact plain_written written ih

theorem Tree.Steady.writes {t t' : Tree} {path : String} {place : Location}
    (steady : t.Steady path place) (writes : t.Writes t') : t'.Steady path place := by
  induction writes with
  | none => exact steady
  | more _ written ih => exact ih.written written

end LiveRules.Files

namespace LiveRules.Collect

/-- A move writes once at most. -/
theorem Running.writes_move {r r' : Running} {m : Move} (plain : r.files.Plain r.store.path)
    (moved : r.move m = some r') : r.files.Writes r'.files := by
  have step := step_of_move {} moved
  generalize History.note {} r m r' = h at step
  cases step with
  | appended _ done => exact .more .none (Files.Tree.append_written done)
  | replaced _ done => exact .more .none (Files.Tree.replace_written plain done)
  | silent | refused | queued | postponed | rejected | close | pop | send | retry | giveUp
  | clear | take | snapshot | failed => exact .none

theorem Running.writes_follow {r r' : Running} {h h' : History} {ms : List Move}
    (plain : r.files.Plain r.store.path) (followed : follow r h ms = some (r', h')) :
    r.files.Writes r'.files := by
  induction ms generalizing r h with
  | nil =>
      obtain ⟨rfl, -⟩ : r = r' ∧ _ := by simpa [follow] using followed
      exact .none
  | cons m ms ih =>
      obtain ⟨after, moved, rest⟩ := Option.bind_eq_some_iff.mp followed
      have writes := writes_move plain moved
      have path := (step_place (step_of_move {} moved)).1
      exact writes.trans (ih (path ▸ plain.writes writes) rest)

theorem Running.writes_shutdown {r : Running} (plain : r.files.Plain r.store.path)
    (accepted : r.store.closed = false) : r.files.Writes r.shutdown.files := by
  obtain ⟨ms, r', h', followed, same, -⟩ := shutdown_follow {} accepted
  have writes := writes_follow plain followed
  rw [same]
  exact writes

namespace Desk
variable {d d' : Desk} {deed : Deed} {config : Config} {files : Files.Tree}

/-- No store sits at a link. -/
def Linkless (d : Desk) : Prop := ∀ s ∈ d.registry.stores, d.files.Plain s.path

/-- It is done by the registry and its stores alone, and no store is opened at a link. -/
def Own (d : Desk) : Deed → Prop
  | .get path => ∀ loc, d.files.canonical path = .ok loc → d.files.Plain loc.text
  | .release _ | .move .. => True
  | .start _ | .stop _ | .edit .. => False

inductive Alone (d : Desk) : Desk → Prop
  | start : Alone d d
  | does {d' d'' : Desk} {deed : Deed} :
      Alone d d' → d'.Own deed → d'.Does deed d'' → Alone d d''

/-- Stores have written, and they are where they were. -/
structure Grows (d d' : Desk) : Prop where
  writes : d.files.Writes d'.files
  stores : ∀ (id : Nat) (s : Store), d.registry.stores[id]? = some s →
    ∃ s' : Store, d'.registry.stores[id]? = some s' ∧ s'.path = s.path

theorem Grows.of_same (stores : d'.registry.stores = d.registry.stores)
    (files : d'.files = d.files) : d.Grows d' :=
  ⟨files ▸ .none, fun _ s there => ⟨s, stores ▸ there, rfl⟩⟩

theorem Grows.trans {d'' : Desk} (first : d.Grows d') (rest : d'.Grows d'') : d.Grows d'' := by
  refine ⟨first.writes.trans rest.writes, fun id s there => ?_⟩
  obtain ⟨s', there', path⟩ := first.stores id s there
  obtain ⟨s'', there'', path'⟩ := rest.stores id s' there'
  exact ⟨s'', there'', path'.trans path⟩

theorem grows_put {id : Nat} {s : Store} {r : Running} (there : d.registry.stores[id]? = some s)
    (path : r.store.path = s.path) (writes : d.files.Writes r.files) : d.Grows (d.put id r) := by
  refine ⟨writes, fun j x here => ?_⟩
  by_cases same : id = j
  · obtain rfl := same
    obtain rfl := Option.some.inj (here.symm.trans there)
    exact ⟨r.store, List.getElem?_set_self (List.getElem?_eq_some_iff.mp there).1, path⟩
  · exact ⟨x, (List.getElem?_set_ne same).trans here, rfl⟩

theorem linkless_put (linkless : d.Linkless) {id : Nat} {s : Store} {r : Running}
    (there : d.registry.stores[id]? = some s) (path : r.store.path = s.path)
    (writes : d.files.Writes r.files) : (d.put id r).Linkless := by
  have plain := linkless s (List.mem_of_getElem? there)
  refine Lists.forall_set (fun x member => (linkless x member).writes writes) ?_
  rw [path]
  exact plain.writes writes

theorem own_step (owned : d.Owned) (linkless : d.Linkless) (own : d.Own deed)
    (does : d.Does deed d') : d.Grows d' ∧ d'.Linkless := by
  cases does with
  | get path =>
      have gets := gets_get d path
      generalize (d.get path).1 = answer, (d.get path).2 = d' at gets ⊢
      cases gets with
      | fails | joins => exact ⟨.of_same rfl rfl, linkless⟩
      | opens place _ loaded =>
          refine ⟨⟨.none, fun id s there => ⟨s, ?_, rfl⟩⟩, Lists.forall_append linkless ?_⟩
          · exact (List.getElem?_append_left (List.getElem?_eq_some_iff.mp there).1).trans there
          · rw [(load_ok loaded).1]
            exact own _ place
  | release handle =>
      have releases := owned.releases_release handle
      generalize d.release handle = d' at releases ⊢
      cases releases with
      | again | one => exact ⟨.of_same rfl rfl, linkless⟩
      | @last e s member holds only there =>
          obtain ⟨s', there', -, accepted⟩ := owned.registered e member
          obtain rfl := Option.some.inj (there.symm.trans there')
          have plain := linkless s (List.mem_of_getElem? there)
          have writes := Running.writes_shutdown (r := d.running s) plain accepted
          have path := (Running.shutdown_ends (r := d.running s) accepted).1
          let given := d.giveBack handle e.store (d.registry.shared.filter (·.path ≠ e.path))
          have same : d.Grows given := .of_same rfl rfl
          exact ⟨same.trans (grows_put there path writes),
            linkless_put (d := given) linkless there path writes⟩
  | @move id s m r there other moved =>
      have plain := linkless s (List.mem_of_getElem? there)
      have writes := Running.writes_move (r := d.running s) plain moved
      have path := (Running.alike_move other moved).path
      exact ⟨grows_put there path writes, linkless_put linkless there path writes⟩
  | start | stop | edit => exact own.elim

/-- What a run of the registry alone keeps. -/
theorem Alone.keeps (alone : d.Alone d') (reachable : Reachable config files d)
    (linkless : d.Linkless) : Reachable config files d' ∧ d.Grows d' ∧ d'.Linkless := by
  induction alone with
  | start => exact ⟨reachable, .of_same rfl rfl, linkless⟩
  | does _ own does ih =>
      obtain ⟨reached, grows, linkless⟩ := ih
      obtain ⟨more, linkless⟩ := own_step reached.owned linkless own does
      exact ⟨reached.does does, grows.trans more, linkless⟩

/-- A call for the path yields one more handle of the store. -/
def Joins (d : Desk) (path : String) (id : Nat) : Prop :=
  ∃ k, (d.get path).1 = .ok k ∧ (d.get path).2.Holds k id

theorem joins_iff (owned : d.Owned) {i id : Nat} (holds : d.Holds i id) {s : Store}
    (there : d.registry.stores[id]? = some s) (path : String) :
    d.Joins path id ↔ ∃ loc, d.files.canonical path = .ok loc ∧ loc.text = s.path := by
  obtain ⟨e, member, rfl⟩ := owned.held i id holds
  obtain ⟨s', there', same, -⟩ := owned.registered e member
  obtain rfl := Option.some.inj (there.symm.trans there')
  have gets := gets_get d path
  unfold Joins
  generalize answered : (d.get path).1 = answer, (d.get path).2 = d' at gets ⊢
  cases gets with
  | fails error =>
      constructor
      · rintro ⟨k, ⟨⟩, -⟩
      · rintro ⟨loc, place, text⟩
        -- With this place the call does not fail.
        have found : d.registry.shared.find? (·.path = loc.text) = some e := by
          rw [text, same]
          exact owned.find_eq member
        simp [get, place, found, giveHandle] at answered
  | @joins loc x place found =>
      have listed := List.mem_of_find?_eq_some found
      have here : x.path = loc.text := by simpa using List.find?_some found
      constructor
      · rintro ⟨k, ⟨⟩, holds'⟩
        have store : x.store = e.store := by simpa [Holds] using holds'
        obtain rfl := owned.entry_eq_of_store listed member store
        exact ⟨loc, place, here.symm.trans same.symm⟩
      · rintro ⟨loc', place', text⟩
        obtain rfl := Except.ok.inj (place.symm.trans place')
        obtain rfl := owned.entry_eq listed member (here.trans (text.trans same))
        exact ⟨_, rfl, by simp [Holds]⟩
  | @opens loc x event events place absent loaded =>
      constructor
      · rintro ⟨k, ⟨⟩, holds'⟩
        have store : d.registry.stores.length = e.store := by simpa [Holds] using holds'
        have lt := (List.getElem?_eq_some_iff.mp there).1
        omega
      · rintro ⟨loc', place', text⟩
        obtain rfl := Except.ok.inj (place.symm.trans place')
        have here : e.path = loc.text := same.symm.trans text.symm
        exact absurd (by simpa using here) (List.find?_eq_none.mp absent e member)

/-- A first line makes the file. -/
theorem first_line {s : Store} {e : String} {loc : Files.Location}
    (holding : s.writer = .holding (.append e))
    (missing : d.files.reach true s.path = .missing loc) :
    ∃ r, (d.running s).move .apply = some r ∧
      r.files = d.files.set loc (.file (.text (e ++ "\n"))) := by
  have ready : d.files.appendWaits s.path = false := by
    simp [Files.Tree.appendWaits, missing]
  have done : d.files.append s.path (e ++ "\n") =
      .ok (d.files.set loc (.file (.text (e ++ "\n"))), [.created loc, .modified loc]) := by
    simp [Files.Tree.append, missing]
  obtain ⟨r, moved, -, files, -⟩ := @line_written (d.running s) e _ _ holding ready done
  exact ⟨r, moved, files⟩

/-- The file that a store makes becomes the place of the paths that lead to it. -/
theorem place_of_first_line {id : Nat} {s : Store} {e : String} {loc : Files.Location}
    {path : String} (there : d.registry.stores[id]? = some s)
    (holding : s.writer = .holding (.append e))
    (missing : d.files.reach true s.path = .missing loc)
    (leads : d.files.reach true path = .missing loc) (does : d.Does (.move id .apply) d') :
    d'.files.canonical path = .ok loc := by
  cases does with
  | @move _ s' _ r there' _ moved =>
      obtain rfl := Option.some.inj (there.symm.trans there')
      obtain ⟨r', moved', files⟩ := first_line holding missing
      obtain rfl := Option.some.inj (moved.symm.trans moved')
      change r.files.canonical path = _
      rw [files]
      exact Files.Tree.canonical_made leads _

/-- Which handles a path yields while a store is held. -/
structure SecondHandle (d : Desk) (i id : Nat) (place : String) : Prop where
  same_iff : ∀ path, d.Joins path id ↔ ∃ loc, d.files.canonical path = .ok loc ∧ loc.text = place
  /-- A path that is steady keeps its store, whatever the stores write. -/
  kept : d.Linkless → ∀ path loc, d.files.Steady path loc → loc.text = place →
    ∀ d', d.Alone d' → d'.Holds i id → d'.Joins path id
  /-- Such is the path of a file that exists, or of one that is missing there. -/
  ordinary : d.Linkless → ∀ path loc, loc.text = place → (d.files.resolve path = .ok loc ∨
    d.files.canonical path = .ok loc ∧ d.files.reach true path = .missing loc ∧
      ∃ dir, d.files.resolve (d.files.holder path).text = .ok dir) →
    ∀ d', d.Alone d' → d'.Holds i id → d'.Joins path id
  /-- A path that leads to a missing file elsewhere loses it with the first line that is
  written there. -/
  lost : ∀ path loc, d.files.reach true path = .missing loc → loc.text ≠ place →
    ∀ j s e, d.registry.stores[j]? = some s → s.writer = .holding (.append e) →
      d.files.reach true s.path = .missing loc →
      ∀ d', d.Does (.move j .apply) d' → d'.Holds i id ∧ ¬ d'.Joins path id

theorem kept_second (reachable : Reachable config files d) {i id : Nat} {s : Store}
    (there : d.registry.stores[id]? = some s) (linkless : d.Linkless) {path : String}
    {loc : Files.Location} (steady : d.files.Steady path loc) (text : loc.text = s.path)
    (alone : d.Alone d') (holds' : d'.Holds i id) : d'.Joins path id := by
  obtain ⟨reached, grows, -⟩ := alone.keeps reachable linkless
  obtain ⟨s', there', same⟩ := grows.stores id s there
  rw [joins_iff reached.owned holds' there', same]
  exact ⟨loc, (steady.writes grows.writes).placed, text⟩

/-- What a path yields in each run that follows, as long as a handle is kept. -/
theorem second_handle (reachable : Reachable config files d) {i id : Nat} (holds : d.Holds i id)
    {s : Store} (there : d.registry.stores[id]? = some s) : d.SecondHandle i id s.path where
  same_iff := joins_iff reachable.owned holds there
  kept := fun linkless path loc steady text d' alone holds' =>
    kept_second reachable there linkless steady text alone holds'
  ordinary := by
    intro linkless path loc text usual d' alone holds'
    rcases usual with found | ⟨placed, missing, dir, directory⟩
    · have steady := Files.Tree.steady_of_resolve found
      exact kept_second reachable there linkless steady text alone holds'
    · have steady := Files.Tree.steady_of_missing placed missing directory
      exact kept_second reachable there linkless steady text alone holds'
  lost := by
    intro path loc leads other j x e listed holding missing d' does
    have frame := frame_of_does does nofun nofun
    have holds' : d'.Holds i id := by rwa [Holds, frame.handles]
    obtain ⟨s', there', alike⟩ := frame.stores id s holds.lent there
    refine ⟨holds', ?_⟩
    rw [joins_iff (reachable.does does).owned holds' there', alike.path]
    rintro ⟨loc', place, text⟩
    have made := place_of_first_line listed holding missing leads does
    obtain rfl := Except.ok.inj (place.symm.trans made)
    exact other text

/-- A link to a missing file. -/
def dangling : Files.Tree where
  nodes := [(["l"], .link "c")]

theorem dangling_reach : dangling.reach true "/l" = .missing ["c"] := by
  have absolute : Files.isAbsolute "/l" = true := by decide +kernel
  have steps : Files.steps "/l" = ["l"] := by decide +kernel
  have relative : Files.isAbsolute "c" = false := by decide +kernel
  have next : Files.steps "c" = ["c"] := by decide +kernel
  have link : dangling.get? ([] ++ ["l"]) = some (.link "c") := by decide +kernel
  have missing : dangling.get? ([] ++ ["c"]) = none := by decide +kernel
  have walk : dangling.walk true Files.Tree.linkLimit [] ["l"] = .missing ["c"] := by
    rw [Files.Tree.walk_link (by simp) (by simp) link]
    simp only [Files.Tree.linkLimit, relative, next]
    exact Files.Tree.walk_none (by simp) (by simp) missing
  simp [Files.Tree.reach, absolute, steps, walk]

theorem dangling_place : dangling.canonical "/l" = .ok ["l"] := by
  have clean : Files.cleanPath dangling.cwd "/l" = ["l"] := by decide +kernel
  have root : Files.Location.text [] = "/" := by decide +kernel
  have missing : dangling.resolve "/l" = .error .notFound := by
    rw [Files.Tree.resolve, dangling_reach]
  simp [Files.Tree.canonical, missing, clean, root, Files.Tree.resolve_root]

/-- The store of the link is about to write its first line. -/
theorem dangling_holding : ∃ d s, Reachable {} dangling d ∧ d.Holds 0 0 ∧ d.files = dangling ∧
    d.registry.stores[0]? = some s ∧ s.path = "/l" ∧ s.writer = .holding (.append "a") := by
  have text : Files.Location.text ["l"] = "/l" := by decide +kernel
  have unread : dangling.readText (Files.Location.text ["l"]) = .error .notFound := by
    rw [text, Files.Tree.readText, Files.Tree.readContent, dangling_reach]
  have opened : Reachable {} dangling ((fresh {} dangling).get "/l").2 := .does .fresh (.get "/l")
  obtain ⟨registry, files⟩ := @get_missing (fresh {} dangling) "/l" ["l"] dangling_place unread rfl
  rw [text] at registry
  generalize ((fresh {} dangling).get "/l").2 = d at opened registry files
  obtain ⟨_, _, changes, events⟩ := d
  obtain ⟨rfl, rfl⟩ := And.intro registry files
  let empty : Store := { path := "/l", config := {} }
  let queued : Store := { empty with entries := ["a"], queue := [.append "a"] }
  let held : Store := { queued with queue := [], writer := .holding (.append "a") }
  have added : empty.add "a" = (true, queued, []) := by decide +kernel
  have moved : (⟨empty, dangling, changes, events⟩ : Running).move (.add "a") =
      some ⟨queued, dangling, changes, events⟩ := by
    simp [Running.move, Running.withStore, Running.tell, added]
  have asked := opened.does (@Does.move _ 0 empty _ _ rfl (by simp) moved)
  have taken := asked.does (@Does.move _ 0 queued .take _ rfl (by simp) rfl)
  exact ⟨_, held, taken, rfl, rfl, rfl, rfl, rfl⟩

/-- A second handle of the link is one of another store, once the first store has written. -/
theorem second_handle_dangling : ∃ d d', Reachable {} dangling d ∧ d.Holds 0 0 ∧
    d.SecondHandle 0 0 "/l" ∧ d.Joins "/l" 0 ∧ d.Does (.move 0 .apply) d' ∧ d'.Holds 0 0 ∧
    ¬ d'.Joins "/l" 0 := by
  obtain ⟨d, s, reachable, holds, files, there, path, holding⟩ := dangling_holding
  have second := second_handle reachable holds there
  rw [path] at second
  have text : Files.Location.text ["l"] = "/l" := by decide +kernel
  have joins := (second.same_iff "/l").mpr ⟨["l"], files ▸ dangling_place, text⟩
  have leads : d.files.reach true "/l" = .missing ["c"] := files ▸ dangling_reach
  have missing : d.files.reach true s.path = .missing ["c"] := path ▸ leads
  obtain ⟨r, moved, -⟩ := first_line holding missing
  have does : d.Does (.move 0 .apply) (d.put 0 r) := .move there (by simp) moved
  obtain ⟨holds', lost⟩ :=
    second.lost "/l" ["c"] leads (by decide +kernel) 0 s "a" there holding missing _ does
  exact ⟨d, d.put 0 r, reachable, holds, second, joins, does, holds', lost⟩

end Desk
end LiveRules.Collect
