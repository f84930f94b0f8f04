import LiveRules.Proofs.Collect.Delivery
import LiveRules.Proofs.Collect.Sharing
import LiveRules.Proofs.Lists
import Mathlib.Data.List.Nodup

/-!
# Handles own their stores

A store that was opened for a handle stays open as long as a handle of it has not been
released, and it is the one that is registered for its path. The last release shuts it
down. Stores follow one another at a path, and what is done with a handle of an earlier
one does not touch a later one.
-/
namespace LiveRules.Collect.Desk
variable {d d' : Desk} {deed : Deed} {config : Config} {files : Files.Tree}

/-- What holds between the handles, the counts and the stores. -/
structure Owned (d : Desk) : Prop where
  unique : (d.registry.shared.map (·.path)).Nodup
  registered : ∀ e ∈ d.registry.shared, ∃ s, d.registry.stores[e.store]? = some s ∧
    s.path = e.path ∧ s.closed = false
  counted : ∀ e ∈ d.registry.shared, e.refs = d.holders e.store ∧ 0 < e.refs
  held : ∀ i id, d.Holds i id → ∃ e ∈ d.registry.shared, e.store = id
  ended : ∀ id, d.Lent id → (∀ e ∈ d.registry.shared, e.store ≠ id) →
    ∃ s, d.registry.stores[id]? = some s ∧ s.writerEnded = true

theorem holders_pos {id : Nat} : 0 < d.holders id ↔ ∃ i, d.Holds i id := by
  rw [holders, List.countP_pos_iff]
  constructor
  · rintro ⟨⟨store, released⟩, member, unreleased⟩
    simp only [Bool.and_eq_true, decide_eq_true_eq, Bool.not_eq_true'] at unreleased
    obtain ⟨rfl, rfl⟩ := unreleased
    exact List.mem_iff_getElem?.mp member
  · rintro ⟨i, holds⟩
    exact ⟨_, List.mem_of_getElem? holds, by simp⟩

theorem Holds.lent {i id : Nat} (holds : d.Holds i id) : d.Lent id :=
  ⟨_, List.mem_of_getElem? holds, rfl⟩

/-- One more handle. -/
theorem holders_lend {id store : Nat}
    (handles : d'.registry.handles = d.registry.handles ++ [{ store := store }]) :
    d'.holders id = d.holders id + if store = id then 1 else 0 := by
  simp [holders, handles, List.countP_append, List.countP_singleton]

theorem holds_lend {i id store : Nat}
    (handles : d'.registry.handles = d.registry.handles ++ [{ store := store }])
    (holds : d'.Holds i id) : d.Holds i id ∨ id = store := by
  rw [Holds, handles] at holds
  rcases Lists.getElem?_append_cases holds with before | new
  · exact .inl before
  · exact .inr (congrArg Handle.store new)

theorem lent_lend {id store : Nat}
    (handles : d'.registry.handles = d.registry.handles ++ [{ store := store }])
    (lent : d'.Lent id) : d.Lent id ∨ id = store := by
  obtain ⟨h, member, rfl⟩ := lent
  rw [handles] at member
  rcases List.mem_append.mp member with before | new
  · exact .inl ⟨h, before, rfl⟩
  · exact .inr (congrArg Handle.store (List.mem_singleton.mp new))

/-- One handle less. -/
theorem holders_giveBack {i store : Nat} (holds : d.Holds i store)
    (handles : d'.registry.handles =
      d.registry.handles.set i { store := store, released := true }) (id : Nat) :
    d.holders id = d'.holders id + if store = id then 1 else 0 := by
  obtain ⟨lt, here⟩ := List.getElem?_eq_some_iff.mp holds
  have pos : store = id → 0 < d.holders id := by
    rintro rfl
    exact holders_pos.mpr ⟨i, holds⟩
  simp only [holders] at pos
  simp only [holders, handles, List.countP_set lt, here]
  by_cases same : store = id
  · have pos := pos same
    simp only [same, decide_true, Bool.not_false, Bool.and_true, Bool.not_true, Bool.and_false,
      Bool.false_eq_true, if_true, if_false]
    omega
  · simp [same]

theorem holds_giveBack {i j id store : Nat}
    (handles : d'.registry.handles =
      d.registry.handles.set i { store := store, released := true })
    (holds : d'.Holds j id) : d.Holds j id := by
  rw [Holds, handles] at holds
  rcases Lists.getElem?_set_cases holds with ⟨-, new⟩ | ⟨-, before⟩
  · cases new
  · exact before

theorem lent_giveBack {i id store : Nat} (holds : d.Holds i store)
    (handles : d'.registry.handles =
      d.registry.handles.set i { store := store, released := true })
    (lent : d'.Lent id) : d.Lent id := by
  obtain ⟨h, member, rfl⟩ := lent
  rw [handles] at member
  rcases List.mem_or_eq_of_mem_set member with before | rfl
  · exact ⟨h, before, rfl⟩
  · exact holds.lent

namespace Owned

theorem entry_eq (owned : Owned d) {e e' : Shared} (member : e ∈ d.registry.shared)
    (member' : e' ∈ d.registry.shared) (path : e.path = e'.path) : e = e' :=
  List.inj_on_of_nodup_map owned.unique member member' path

/-- A store is registered once. -/
theorem entry_eq_of_store (owned : Owned d) {e e' : Shared} (member : e ∈ d.registry.shared)
    (member' : e' ∈ d.registry.shared) (store : e.store = e'.store) : e = e' := by
  obtain ⟨s, there, path, -⟩ := owned.registered e member
  obtain ⟨s', there', path', -⟩ := owned.registered e' member'
  rw [store, there'] at there
  obtain rfl := Option.some.inj there
  exact owned.entry_eq member member' (path.symm.trans path')

theorem find_eq (owned : Owned d) {e : Shared} (member : e ∈ d.registry.shared) :
    d.registry.shared.find? (·.path = e.path) = some e := by
  cases found : d.registry.shared.find? (·.path = e.path) with
  | none => simpa using List.find?_eq_none.mp found e member
  | some e' =>
      have path : e'.path = e.path := by simpa using List.find?_some found
      rw [owned.entry_eq (List.mem_of_find?_eq_some found) member path]

theorem lent (owned : Owned d) {e : Shared} (member : e ∈ d.registry.shared) :
    d.Lent e.store := by
  obtain ⟨count, pos⟩ := owned.counted e member
  obtain ⟨i, holds⟩ := holders_pos.mp (count ▸ pos)
  exact holds.lent

/-- Every store that was opened for a handle is there. -/
theorem store (owned : Owned d) {id : Nat} (lent : d.Lent id) :
    ∃ s, d.registry.stores[id]? = some s := by
  by_cases shared : ∃ e ∈ d.registry.shared, e.store = id
  · obtain ⟨e, member, rfl⟩ := shared
    obtain ⟨s, there, -⟩ := owned.registered e member
    exact ⟨s, there⟩
  · obtain ⟨s, there, -⟩ := owned.ended id lent fun e member store => shared ⟨e, member, store⟩
    exact ⟨s, there⟩

theorem fresh (config : Config) (files : Files.Tree) : Owned (Desk.fresh config files) where
  unique := .nil
  registered := nofun
  counted := nofun
  held := nofun
  ended := by
    rintro id ⟨h, none, -⟩
    cases none

theorem frame (owned : Owned d) (frame : Frame d d') : Owned d' where
  unique := frame.shared ▸ owned.unique
  registered := by
    intro e member
    rw [frame.shared] at member
    obtain ⟨s, there, path, accepted⟩ := owned.registered e member
    obtain ⟨s', there', alike⟩ := frame.stores _ s (owned.lent member) there
    exact ⟨s', there', alike.path.trans path, alike.closed.trans accepted⟩
  counted := by
    intro e member
    rw [frame.shared] at member
    simpa only [holders, frame.handles] using owned.counted e member
  held := by
    intro i id holds
    rw [frame.shared]
    exact owned.held i id (by rwa [Holds, ← frame.handles])
  ended := by
    intro id lent gone
    rw [frame.shared] at gone
    have lent : d.Lent id := by rwa [Lent, ← frame.handles]
    obtain ⟨s, there, ended⟩ := owned.ended id lent gone
    obtain ⟨s', there', alike⟩ := frame.stores id s lent there
    exact ⟨s', there', alike.ended ended⟩

/-- The entries are those from before, with the counts that the handles call for. -/
theorem recount (owned : Owned d) {path : String} {count : Nat → Nat}
    (stores : d'.registry.stores = d.registry.stores)
    (shared : d'.registry.shared = d.registry.shared.map (Shared.recount path count))
    (counts : ∀ e ∈ d.registry.shared,
      (e.recount path count).refs = d'.holders e.store ∧ 0 < d'.holders e.store)
    (held : ∀ i id, d'.Holds i id → ∃ e ∈ d.registry.shared, e.store = id)
    (lent : ∀ id, d'.Lent id → d.Lent id) : Owned d' where
  unique := by
    have same : (Shared.path ∘ Shared.recount path count) = Shared.path := by
      funext e
      exact e.path_recount path count
    rw [shared, List.map_map, same]
    exact owned.unique
  registered := by
    intro e member
    rw [shared] at member
    obtain ⟨old, before, rfl⟩ := List.mem_map.mp member
    rw [stores, Shared.store_recount, Shared.path_recount]
    exact owned.registered old before
  counted := by
    intro e member
    rw [shared] at member
    obtain ⟨old, before, rfl⟩ := List.mem_map.mp member
    obtain ⟨count, pos⟩ := counts old before
    rw [Shared.store_recount, count]
    exact ⟨rfl, pos⟩
  held := by
    intro i id holds
    obtain ⟨e, member, rfl⟩ := held i id holds
    rw [shared]
    exact ⟨_, List.mem_map_of_mem member, e.store_recount path count⟩
  ended := by
    intro id lent' gone
    rw [stores]
    refine owned.ended id (lent id lent') fun e member => ?_
    rw [← e.store_recount path count]
    exact gone _ (shared ▸ List.mem_map_of_mem member)

/-- The number of a store that a handle was given is that of a store. -/
theorem lent_lt (owned : Owned d) {id : Nat} (lent : d.Lent id) :
    id < d.registry.stores.length := by
  obtain ⟨s, there⟩ := owned.store lent
  exact (List.getElem?_eq_some_iff.mp there).1

/-- A new store comes with the first handle of it. -/
theorem opens (owned : Owned d) {s : Store}
    (stores : d'.registry.stores = d.registry.stores ++ [s])
    (shared : d'.registry.shared =
      d.registry.shared ++ [⟨s.path, d.registry.stores.length, 1⟩])
    (handles : d'.registry.handles =
      d.registry.handles ++ [{ store := d.registry.stores.length }])
    (new : s.path ∉ d.registry.shared.map (·.path)) (accepted : s.closed = false) :
    Owned d' where
  unique := by
    rw [shared]
    simpa [List.nodup_append, owned.unique] using new
  registered := by
    intro e member
    rw [stores]
    rw [shared] at member
    rcases List.mem_append.mp member with before | last
    · obtain ⟨old, there, same⟩ := owned.registered e before
      refine ⟨old, ?_, same⟩
      rw [List.getElem?_append_left (owned.lent_lt (owned.lent before)), there]
    · obtain rfl := List.mem_singleton.mp last
      exact ⟨s, by simp, rfl, accepted⟩
  counted := by
    intro e member
    rw [shared] at member
    rw [holders_lend handles]
    rcases List.mem_append.mp member with before | last
    · rw [if_neg (Nat.ne_of_gt (owned.lent_lt (owned.lent before)))]
      exact owned.counted e before
    · obtain rfl := List.mem_singleton.mp last
      have none : d.holders d.registry.stores.length = 0 := by
        by_contra some
        obtain ⟨i, holds⟩ := holders_pos.mp (Nat.pos_of_ne_zero some)
        exact absurd (owned.lent_lt holds.lent) (Nat.lt_irrefl _)
      rw [none, if_pos rfl]
      exact ⟨rfl, Nat.one_pos⟩
  held := by
    intro i id holds
    rw [shared]
    rcases holds_lend handles holds with before | rfl
    · obtain ⟨e, member, same⟩ := owned.held i id before
      exact ⟨e, List.mem_append_left _ member, same⟩
    · exact ⟨_, List.mem_append_right _ (List.mem_singleton_self _), rfl⟩
  ended := by
    intro id lent gone
    rw [stores]
    rw [shared] at gone
    rcases lent_lend handles lent with before | rfl
    · obtain ⟨old, there, ended⟩ := owned.ended id before fun e member =>
        gone e (List.mem_append_left _ member)
      exact ⟨old, by rw [List.getElem?_append_left (owned.lent_lt before), there], ended⟩
    · exact absurd rfl (gone _ (List.mem_append_right _ (List.mem_singleton_self _)))

theorem gets (owned : Owned d) {path : String} {answer : Except CollectError Nat}
    (gets : d.Gets path answer d') : Owned d' := by
  cases gets with
  | fails => exact owned
  | @joins loc e place found =>
      have member := List.mem_of_find?_eq_some found
      have here : e.path = loc.text := by simpa using List.find?_some found
      refine owned.recount rfl rfl ?_ ?_ ?_
      · intro x listed
        obtain ⟨count, pos⟩ := owned.counted x listed
        rw [holders_lend rfl]
        by_cases same : x.path = loc.text
        · obtain rfl := owned.entry_eq listed member (same.trans here.symm)
          rw [Shared.recount, if_pos same, if_pos rfl]
          exact ⟨congrArg (· + 1) count, Nat.succ_pos _⟩
        · have other : e.store ≠ x.store := by
            intro store
            exact same (owned.entry_eq_of_store member listed store ▸ here)
          rw [Shared.recount, if_neg same, if_neg other]
          exact ⟨count, count ▸ pos⟩
      · intro i id holds
        rcases holds_lend rfl holds with before | rfl
        · exact owned.held i id before
        · exact ⟨e, member, rfl⟩
      · intro id lent
        rcases lent_lend rfl lent with before | rfl
        · exact before
        · exact owned.lent member
  | @opens loc s event events place absent loaded =>
      obtain ⟨path, accepted⟩ := load_ok loaded
      have new : s.path ∉ d.registry.shared.map (·.path) := by
        intro listed
        obtain ⟨e, member, same⟩ := List.mem_map.mp listed
        exact List.find?_eq_none.mp absent e member (by simpa [path] using same)
      refine owned.opens rfl ?_ rfl new accepted
      rw [path]

end Owned

/-- A handle is marked as released, and the sharing becomes another. -/
def giveBack (d : Desk) (handle store : Nat) (shared : List Shared) : Desk :=
  { d with registry := { d.registry with
      shared, handles := d.registry.handles.set handle { store, released := true } } }

/-- The things that the release of a handle can do. -/
inductive Releases (d : Desk) (handle : Nat) : Desk → Prop
  | again (free : ∀ id, ¬ d.Holds handle id) : Releases d handle d
  | one {e : Shared} (member : e ∈ d.registry.shared) (holds : d.Holds handle e.store)
      (more : 1 < e.refs) :
      Releases d handle (d.giveBack handle e.store
        (d.registry.shared.map (Shared.recount e.path (· - 1))))
  | last {e : Shared} {s : Store} (member : e ∈ d.registry.shared)
      (holds : d.Holds handle e.store) (only : e.refs = 1)
      (there : d.registry.stores[e.store]? = some s) :
      Releases d handle
        ((d.giveBack handle e.store (d.registry.shared.filter (·.path ≠ e.path))).put e.store
          (d.running s).shutdown)

namespace Owned

theorem releases_release (owned : Owned d) (handle : Nat) :
    d.Releases handle (d.release handle) := by
  unfold release
  cases here : d.registry.handles[handle]? with
  | none =>
      refine .again fun id holds => ?_
      rw [Holds, here] at holds
      cases holds
  | some h =>
      obtain ⟨store, released⟩ := h
      cases released with
      | true =>
          refine .again fun id holds => ?_
          rw [Holds, here] at holds
          cases holds
      | false =>
          obtain ⟨e, member, rfl⟩ := owned.held handle store here
          obtain ⟨s, there, path, -⟩ := owned.registered e member
          obtain ⟨-, pos⟩ := owned.counted e member
          simp only [Bool.false_eq_true, if_false, there, releasePath, path,
            owned.find_eq member]
          split
          · rename_i few
            let given := d.giveBack handle e.store (d.registry.shared.filter (·.path ≠ e.path))
            change d.Releases handle (given.shutdown e.store)
            rw [shutdown_eq (d := given) there]
            exact .last member here (by omega) there
          · exact .one member here (by omega)

/-- The last handle of a store goes, and its entry with it. -/
theorem retire (owned : Owned d) {handle : Nat} {e : Shared} {s' : Store}
    (member : e ∈ d.registry.shared) (holds : d.Holds handle e.store) (only : e.refs = 1)
    (shared : d'.registry.shared = d.registry.shared.filter (·.path ≠ e.path))
    (handles : d'.registry.handles =
      d.registry.handles.set handle { store := e.store, released := true })
    (gone : d'.registry.stores[e.store]? = some s') (ended : s'.writerEnded = true)
    (others : ∀ id, e.store ≠ id → d'.registry.stores[id]? = d.registry.stores[id]?) :
    Owned d' := by
  have kept {x : Shared} : x ∈ d'.registry.shared ↔ x ∈ d.registry.shared ∧ e.store ≠ x.store := by
    rw [shared, List.mem_filter, decide_eq_true_eq]
    refine and_congr_right fun listed => not_congr ⟨fun path => ?_, fun store => ?_⟩
    · rw [owned.entry_eq listed member path]
    · rw [owned.entry_eq_of_store member listed store]
  have less := holders_giveBack holds handles
  constructor
  · rw [shared]
    exact owned.unique.sublist (List.filter_sublist.map _)
  · intro x listed
    obtain ⟨before, other⟩ := kept.mp listed
    rw [others x.store other]
    exact owned.registered x before
  · intro x listed
    obtain ⟨before, other⟩ := kept.mp listed
    have less := less x.store
    rw [if_neg other] at less
    rw [← less.trans (Nat.add_zero _)]
    exact owned.counted x before
  · intro i id held
    obtain ⟨x, listed, rfl⟩ := owned.held i id (holds_giveBack handles held)
    refine ⟨x, kept.mpr ⟨listed, fun same => ?_⟩, rfl⟩
    -- No handle of the store is left.
    have less := less x.store
    rw [if_pos same] at less
    have left := holders_pos.mpr ⟨i, held⟩
    obtain ⟨count, -⟩ := owned.counted e member
    rw [same] at count
    omega
  · intro id lent unshared
    by_cases same : e.store = id
    · exact ⟨s', same ▸ gone, ended⟩
    · rw [others id same]
      refine owned.ended id (lent_giveBack holds handles lent) fun x listed store => ?_
      exact unshared x (kept.mpr ⟨listed, fun here => same (here.trans store)⟩) store

theorem releases (owned : Owned d) {handle : Nat} (releases : d.Releases handle d')
    (returns : ∀ id, d.Holds handle id → ¬ d'.Stuck id) : Owned d' := by
  cases releases with
  | again => exact owned
  | @one e member holds more =>
      let given := d.giveBack handle e.store (d.registry.shared.map (.recount e.path (· - 1)))
      have less (id : Nat) : d.holders id = given.holders id + if e.store = id then 1 else 0 :=
        holders_giveBack holds rfl id
      change Owned given
      refine owned.recount rfl rfl ?_ ?_ ?_
      · intro x listed
        obtain ⟨count, pos⟩ := owned.counted x listed
        have less := less x.store
        by_cases same : x.path = e.path
        · obtain rfl := owned.entry_eq listed member same
          rw [if_pos rfl] at less
          rw [Shared.recount, if_pos rfl]
          dsimp only
          omega
        · have other : e.store ≠ x.store := by
            intro store
            exact same (owned.entry_eq_of_store member listed store ▸ rfl)
          rw [if_neg other] at less
          rw [Shared.recount, if_neg same]
          omega
      · exact fun i id held => owned.held i id (holds_giveBack rfl held)
      · exact fun id lent => lent_giveBack holds rfl lent
  | @last e s member holds only there =>
      obtain ⟨s', there', path, accepted⟩ := owned.registered e member
      obtain rfl := Option.some.inj (there.symm.trans there')
      have lt := (List.getElem?_eq_some_iff.mp there).1
      have ended := shutdown_ended there accepted (returns e.store holds)
      exact owned.retire member holds only rfl rfl (List.getElem?_set_self lt) ended
        fun id other => List.getElem?_set_ne other

theorem does (owned : Owned d) (does : d.Does deed d') : Owned d' := by
  cases deed with
  | get path =>
      cases does
      exact owned.gets (gets_get d path)
  | release handle =>
      cases does with
      | release _ returns => exact owned.releases (owned.releases_release handle) returns
  | move | start | stop | edit =>
      exact owned.frame (frame_of_does does nofun nofun)

/-- A store changes its state only with the release of its last handle. -/
theorem store_does (owned : Owned d) (does : d.Does deed d') {id : Nat} {s : Store}
    (lent : d.Lent id) (there : d.registry.stores[id]? = some s) :
    ∃ s', d'.registry.stores[id]? = some s' ∧
      ((∃ handle, deed = .release handle ∧ d.Holds handle id ∧ d.holders id = 1) ∧
          s.closed = false ∧ s'.writerEnded = true ∨
        ¬ (∃ handle, deed = .release handle ∧ d.Holds handle id ∧ d.holders id = 1) ∧
          s.Alike s') := by
  cases deed with
  | get path =>
      cases does
      refine ⟨s, ?_, .inr ⟨by simp, .refl s⟩⟩
      have gets := gets_get d path
      generalize (d.get path).1 = answer, (d.get path).2 = d' at gets ⊢
      cases gets with
      | fails | joins => exact there
      | opens =>
          exact (List.getElem?_append_left (List.getElem?_eq_some_iff.mp there).1).trans there
  | release handle =>
      have returns : ∀ id, d.Holds handle id → ¬ d'.Stuck id := by
        cases does with
        | release _ returns => exact returns
      have releases : d.Releases handle d' := by
        cases does with
        | release => exact owned.releases_release handle
      cases releases with
      | again free =>
          refine ⟨s, there, .inr ⟨?_, .refl s⟩⟩
          rintro ⟨_, ⟨⟩, holds, -⟩
          exact free id holds
      | @one e member holds more =>
          refine ⟨s, there, .inr ⟨?_, .refl s⟩⟩
          rintro ⟨_, ⟨⟩, holds', few⟩
          have count := (owned.counted e member).1
          obtain rfl : e.store = id :=
            congrArg Handle.store (Option.some.inj (holds.symm.trans holds'))
          omega
      | @last e old member holds only here =>
          have lt := (List.getElem?_eq_some_iff.mp here).1
          by_cases same : e.store = id
          · obtain rfl := same
            obtain rfl := Option.some.inj (here.symm.trans there)
            obtain ⟨s', there', -, accepted⟩ := owned.registered e member
            obtain rfl := Option.some.inj (there.symm.trans there')
            have ended := shutdown_ended here accepted (returns e.store holds)
            have count := (owned.counted e member).1.symm.trans only
            exact ⟨_, List.getElem?_set_self lt, .inl ⟨⟨handle, rfl, holds, count⟩, accepted, ended⟩⟩
          · refine ⟨s, (List.getElem?_set_ne same).trans there, .inr ⟨?_, .refl s⟩⟩
            rintro ⟨_, ⟨⟩, holds', -⟩
            exact same (congrArg Handle.store (Option.some.inj (holds.symm.trans holds')))
  | move | start | stop | edit =>
      obtain ⟨s', there', alike⟩ := (frame_of_does does nofun nofun).stores id s lent there
      exact ⟨s', there', .inr ⟨by simp, alike⟩⟩

end Owned

theorem Reachable.owned (reachable : Reachable config files d) : Owned d := by
  induction reachable with
  | fresh => exact .fresh config files
  | does _ does ih => exact ih.does does

/-- What handles, counts and stores owe to each other, and what a call does to them. -/
structure Ownership (d : Desk) : Prop where
  owned : d.Owned
  /-- A store that was opened for a handle is shut down, or it is the one that is
  registered for its path. -/
  sole : ∀ id, d.Lent id → ∀ s, d.registry.stores[id]? = some s → s.closed = false →
    d.registry.shared.find? (·.path = s.path) = some ⟨s.path, id, d.holders id⟩
  listed : ∀ id, d.Lent id → ∀ s, d.registry.stores[id]? = some s →
    (s.closed = false ↔ ∃ e ∈ d.registry.shared, e.store = id)
  /-- The release of the last handle shuts a store down, and nothing else does. -/
  closes : ∀ deed d', d.Does deed d' → ∀ id, d.Lent id → ∀ s, d.registry.stores[id]? = some s →
    s.closed = false → ∃ s', d'.registry.stores[id]? = some s' ∧
      (s'.closed = true ↔ ∃ i, deed = .release i ∧ d.Holds i id ∧ d.holders id = 1) ∧
      (s'.closed = true → s'.writerEnded = true)
  stays : ∀ deed d', d.Does deed d' → ∀ id, d.Lent id → ∀ s, d.registry.stores[id]? = some s →
    s.writerEnded = true → ∃ s', d'.registry.stores[id]? = some s' ∧ s'.writerEnded = true
  /-- When a store is opened for a handle, those before it at its path have ended. -/
  follows : ∀ path s, (d.get path).2.registry.stores = d.registry.stores ++ [s] →
    ∀ id, d.Lent id → ∀ old, d.registry.stores[id]? = some old → old.path = s.path →
      old.writerEnded = true
  failed : ∀ path e, (d.get path).1 = .error e → (d.get path).2 = d
  /-- A handle is released once. -/
  again : ∀ i, (∀ id, ¬ d.Holds i id) → d.release i = d
  /-- A release leaves the counts of other stores alone. -/
  apart : ∀ i h, d.registry.handles[i]? = some h → ∀ e, e.store ≠ h.store →
    (e ∈ (d.release i).registry.shared ↔ e ∈ d.registry.shared)

theorem failed_get {path : String} {e : CollectError} (failed : (d.get path).1 = .error e) :
    (d.get path).2 = d := by
  have gets := gets_get d path
  rw [failed] at gets
  generalize (d.get path).2 = d' at gets ⊢
  cases gets
  rfl

namespace Owned

theorem listed (owned : Owned d) {id : Nat} (lent : d.Lent id) {s : Store}
    (there : d.registry.stores[id]? = some s) :
    s.closed = false ↔ ∃ e ∈ d.registry.shared, e.store = id := by
  constructor
  · intro accepted
    by_contra unshared
    obtain ⟨s', there', ended⟩ :=
      owned.ended id lent fun e member store => unshared ⟨e, member, store⟩
    obtain rfl := Option.some.inj (there.symm.trans there')
    rw [(Store.writerEnded_iff.mp ended).1] at accepted
    cases accepted
  · rintro ⟨e, member, rfl⟩
    obtain ⟨s', there', -, accepted⟩ := owned.registered e member
    obtain rfl := Option.some.inj (there.symm.trans there')
    exact accepted

/-- The entry of an open store. -/
theorem entry (owned : Owned d) {id : Nat} (lent : d.Lent id) {s : Store}
    (there : d.registry.stores[id]? = some s) (accepted : s.closed = false) :
    ⟨s.path, id, d.holders id⟩ ∈ d.registry.shared := by
  obtain ⟨e, member, rfl⟩ := (owned.listed lent there).mp accepted
  obtain ⟨s', there', path, -⟩ := owned.registered e member
  obtain rfl := Option.some.inj (there.symm.trans there')
  rw [path, ← (owned.counted e member).1]
  exact member

theorem follows (owned : Owned d) {path : String} {s : Store}
    (opened : (d.get path).2.registry.stores = d.registry.stores ++ [s]) {id : Nat}
    (lent : d.Lent id) {old : Store} (there : d.registry.stores[id]? = some old)
    (same : old.path = s.path) : old.writerEnded = true := by
  have gets := gets_get d path
  generalize (d.get path).1 = answer, (d.get path).2 = d' at gets opened
  cases gets with
  | fails | joins => simp at opened
  | @opens loc s' event events place absent loaded =>
      obtain rfl : s' = s := by simpa using opened
      have unshared : ∀ e ∈ d.registry.shared, e.store ≠ id := by
        rintro e member rfl
        obtain ⟨s', there', path, -⟩ := owned.registered e member
        obtain rfl := Option.some.inj (there.symm.trans there')
        have here : e.path = loc.text := path.symm.trans (same.trans (load_ok loaded).1)
        exact List.find?_eq_none.mp absent e member (by simpa using here)
      obtain ⟨s', there', ended⟩ := owned.ended id lent unshared
      obtain rfl := Option.some.inj (there.symm.trans there')
      exact ended

theorem apart (owned : Owned d) {i : Nat} {h : Handle} (given : d.registry.handles[i]? = some h)
    {e : Shared} (other : e.store ≠ h.store) :
    e ∈ (d.release i).registry.shared ↔ e ∈ d.registry.shared := by
  have releases := owned.releases_release i
  generalize d.release i = d' at releases ⊢
  have mine {x y : Shared} (member : x ∈ d.registry.shared) (holds : d.Holds i x.store)
      (listed : y ∈ d.registry.shared) (path : y.path = x.path) : y.store = h.store := by
    rw [owned.entry_eq listed member path]
    exact congrArg Handle.store (Option.some.inj (holds.symm.trans given))
  cases releases with
  | again => exact Iff.rfl
  | @one x member holds more =>
      constructor
      · intro listed
        obtain ⟨y, before, rfl⟩ := List.mem_map.mp listed
        rw [Shared.store_recount] at other
        rwa [Shared.recount, if_neg fun path => other (mine member holds before path)]
      · intro before
        refine List.mem_map.mpr ⟨e, before, ?_⟩
        rw [Shared.recount, if_neg fun path => other (mine member holds before path)]
  | @last x s member holds only there =>
      change e ∈ d.registry.shared.filter (·.path ≠ x.path) ↔ _
      rw [List.mem_filter, decide_eq_true_eq]
      exact ⟨And.left, fun before => ⟨before, fun path => other (mine member holds before path)⟩⟩

end Owned

/-- What is opened for handles belongs to them. -/
theorem handles_own_stores (reachable : Reachable config files d) : d.Ownership where
  owned := reachable.owned
  sole := fun id lent s there accepted =>
    reachable.owned.find_eq (reachable.owned.entry lent there accepted)
  listed := fun id lent s there => reachable.owned.listed lent there
  closes := by
    intro deed d' does id lent s there accepted
    obtain ⟨s', there', last | other⟩ := reachable.owned.store_does does lent there
    · obtain ⟨last, -, ended⟩ := last
      have closed := (Store.writerEnded_iff.mp ended).1
      exact ⟨s', there', iff_of_true closed last, fun _ => ended⟩
    · obtain ⟨other, alike⟩ := other
      have opened : ¬ s'.closed = true := by simp [alike.closed, accepted]
      exact ⟨s', there', iff_of_false opened other, fun closed => absurd closed opened⟩
  stays := by
    intro deed d' does id lent s there ended
    obtain ⟨s', there', ⟨-, -, ended'⟩ | ⟨-, alike⟩⟩ := reachable.owned.store_does does lent there
    · exact ⟨s', there', ended'⟩
    · exact ⟨s', there', alike.ended ended⟩
  follows := fun path s opened id lent old there same =>
    reachable.owned.follows opened lent there same
  failed := fun path e failed => failed_get failed
  again := by
    intro i free
    have releases := reachable.owned.releases_release i
    generalize d.release i = d' at releases ⊢
    cases releases with
    | again => rfl
    | one _ holds | last _ holds => exact absurd holds (free _)
  apart := fun i h given e other => reachable.owned.apart given other

theorem not_stuck {id : Nat} (idle : ∀ s ∈ d.registry.stores, s.writer = .idle) :
    ¬ d.Stuck id := by
  rintro ⟨s, there, e, holding, -⟩
  rw [running, idle s (List.mem_of_getElem? there)] at holding
  cases holding

theorem place_missing : ({} : Files.Tree).canonical "/c" = .ok ["c"] := by
  have clean : Files.cleanPath [] "/c" = ["c"] := by decide +kernel
  have root : Files.Location.text [] = "/" := by decide +kernel
  have missing : ({} : Files.Tree).resolve "/c" = .error .notFound := by
    rw [Files.Tree.resolve, missing_name]
  simp [Files.Tree.canonical, missing, clean, root, Files.Tree.resolve_root]

/-- A store is opened for a missing file. -/
theorem get_missing {path : String} {loc : Files.Location}
    (place : d.files.canonical path = .ok loc)
    (missing : d.files.readText loc.text = .error .notFound) (unshared : d.registry.shared = []) :
    (d.get path).2.registry = { d.registry with
      stores := d.registry.stores ++ [{ path := loc.text, config := d.registry.config }]
      shared := [⟨loc.text, d.registry.stores.length, 1⟩]
      handles := d.registry.handles ++ [{ store := d.registry.stores.length }] } ∧
    (d.get path).2.files = d.files := by
  simp [get, place, unshared, openStore, Store.load, missing, giveHandle, tell,
    Store.load.withEntries]

theorem get_shared {path : String} {loc : Files.Location} {id refs : Nat}
    (place : d.files.canonical path = .ok loc)
    (shared : d.registry.shared = [⟨loc.text, id, refs⟩]) :
    (d.get path).2.registry = { d.registry with
      shared := [⟨loc.text, id, refs + 1⟩]
      handles := d.registry.handles ++ [{ store := id }] } ∧
    (d.get path).2.files = d.files := by
  simp [get, place, shared, giveHandle]

/-- Two handles of the store of a missing file. -/
def joint : Registry where
  stores := [{ path := "/c", config := {} }]
  shared := [⟨"/c", 0, 2⟩]
  handles := [{ store := 0 }, { store := 0 }]

theorem text_missing : Files.Location.text ["c"] = "/c" := by decide +kernel

theorem joint_reachable : ∃ d, Reachable {} {} d ∧ d.registry = joint ∧ d.files = {} := by
  have opened : Reachable {} {} ((fresh {} {}).get "/c").2 := .does .fresh (.get "/c")
  obtain ⟨registry, files⟩ := @get_missing (fresh {} {}) "/c" ["c"] place_missing
    (text_missing ▸ missing_text) rfl
  obtain ⟨registry', files'⟩ := @get_shared ((fresh {} {}).get "/c").2 "/c" ["c"] 0 1
    (files ▸ place_missing) (by rw [registry]; rfl)
  refine ⟨_, opened.does (.get "/c"), ?_, files'.trans files⟩
  rw [registry', registry, text_missing]
  rfl

/-- Two handles of a store are released, one of them twice, and a new store follows. -/
theorem handles_own_stores_twice : ∃ d, Reachable {} {} d ∧ d.Ownership ∧
    d.registry.stores.map (·.closed) = [true, false] ∧ d.registry.shared = [⟨"/c", 1, 1⟩] ∧
    d.registry.handles = [⟨0, true⟩, ⟨0, true⟩, ⟨1, false⟩] := by
  obtain ⟨⟨_, _, changes, events⟩, reachable, rfl, rfl⟩ := joint_reachable
  -- The writer is idle all the time, so every release comes back.
  have idle {closed : Bool} :
      ∀ s ∈ [({ path := "/c", config := {}, closed } : Store)], s.writer = .idle := by
    simp
  have once := reachable.does (.release 0 fun _ _ => not_stuck idle)
  have twice := once.does (.release 0 fun _ _ => not_stuck idle)
  have gone := twice.does (.release 1 fun _ _ => not_stuck idle)
  let last := (((⟨joint, {}, changes, events⟩ : Desk).release 0).release 0).release 1
  obtain ⟨registry, -⟩ := @get_missing last "/c" ["c"] place_missing
    (text_missing ▸ missing_text) rfl
  have again := gone.does (.get "/c")
  rw [text_missing] at registry
  refine ⟨_, again, handles_own_stores again, ?_, ?_, ?_⟩
  · rw [registry]
    rfl
  · rw [registry]
    rfl
  · rw [registry]
    rfl

end LiveRules.Collect.Desk
