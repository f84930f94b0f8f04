import LiveRules.Proofs.Collect.Accounts
import LiveRules.Proofs.Host.Shelves

/-!
# Closing what works for plugins

Every handle that has not been given back and every watcher that has not been closed is in
the hands of a provider. Closing the providers in turn takes one after the other out of
them, and once all of them are closed, closing them again does nothing.
-/
namespace LiveRules
open Engine

namespace Collect.Desk
variable {d d' : Desk} {handle : Nat}

theorem Owned.of_registry (owned : Owned d) (same : d'.registry = d.registry) : Owned d' :=
  owned.frame ⟨by rw [same], by rw [same], fun id s _ there => ⟨s, by rw [same, there], .refl s⟩⟩

theorem Frame.put {id : Nat} {s : Store} {r : Running} (there : d.registry.stores[id]? = some s)
    (alike : s.Alike r.store) : d.Frame (d.put id r) := by
  refine ⟨rfl, rfl, fun i s' _ here => ?_⟩
  by_cases same : id = i
  · subst same
    obtain rfl := Option.some.inj (there.symm.trans here)
    exact ⟨r.store, stores_put there r, alike⟩
  · exact ⟨s', (List.getElem?_set_ne same).trans here, .refl s'⟩

namespace Releases

/-- The handle that is released is held no more. -/
theorem holds {i id : Nat} (releases : d.Releases handle d') (holds : d'.Holds i id) :
    d.Holds i id ∧ i ≠ handle := by
  cases releases with
  | again free =>
      refine ⟨holds, ?_⟩
      rintro rfl
      exact free id holds
  | one _ held | last _ held =>
      refine ⟨holds_giveBack rfl holds, ?_⟩
      rintro rfl
      rcases Lists.getElem?_set_cases holds with ⟨-, given⟩ | ⟨other, -⟩
      · cases given
      · exact other rfl

theorem length_stores (releases : d.Releases handle d') :
    d'.registry.stores.length = d.registry.stores.length := by
  cases releases with
  | again | one => rfl
  | last => simp [put, giveBack]

theorem lent {id : Nat} (releases : d.Releases handle d') : d'.Lent id ↔ d.Lent id := by
  cases releases with
  | again => exact .rfl
  | @one e _ held | @last e _ _ held =>
      refine ⟨lent_giveBack held rfl, fun ⟨h, member, same⟩ => ?_⟩
      by_cases own : h = { store := e.store }
      · refine ⟨⟨e.store, true⟩, ?_, by rw [← same, own]⟩
        exact List.mem_of_getElem? (List.getElem?_set_self (List.getElem?_eq_some_iff.mp held).1)
      · exact ⟨h, Lists.mem_set_of_ne held member own _, same⟩

end Releases

/-- No store of a handle has anything to do. -/
def Calm (d : Desk) : Prop :=
  ∀ id s, d.Lent id → d.registry.stores[id]? = some s → s.Resting

theorem Calm.of_registry (calm : Calm d) (same : d'.registry = d.registry) : Calm d' := by
  rw [Calm]
  unfold Lent
  rwa [same]

theorem Calm.not_stuck (calm : Calm d) {id : Nat} (lent : d.Lent id) : ¬ d.Stuck id := by
  intro ⟨s, there, e, holding, _⟩
  have idle := (calm id s lent there).2.2.2
  rw [running, idle] at holding
  cases holding

/-- A release changes no file and comes back as long as all stores are calm. -/
theorem Calm.releases (calm : Calm d) (owned : Owned d) (releases : d.Releases handle d') :
    Calm d' ∧ d'.files = d.files ∧ d'.changes = d.changes := by
  have lent {id : Nat} : d'.Lent id → d.Lent id := releases.lent.mp
  cases releases with
  | again | one => exact ⟨fun id s given there => calm id s (lent given) there, rfl, rfl⟩
  | @last e s member held only there =>
      have resting := calm e.store s held.lent there
      obtain ⟨s', there', -, accepted⟩ := owned.registered e member
      obtain rfl := Option.some.inj (there.symm.trans there')
      have shut := Running.shutdown_of_resting (r := d.running s) resting accepted
      rw [shut]
      refine ⟨fun id s' given there' => ?_, rfl, rfl⟩
      rcases Lists.getElem?_set_cases there' with ⟨rfl, rfl⟩ | ⟨-, before⟩
      · exact resting
      · exact calm id s' (lent given) before

/-- No writer waits if every pipe has a reader. -/
theorem not_stuck_of_heard (heard : Heard d.files) (id : Nat) : ¬ d.Stuck id := by
  intro ⟨s, _, e, _, waits⟩
  have ready : (d.running s).files.appendWaits (d.running s).store.path = false := heard.ready _
  rw [ready] at waits
  cases waits

theorem Releases.heard (releases : d.Releases handle d') (owned : d.Owned)
    (heard : Heard d.files) : Heard d'.files := by
  cases releases with
  | again | one => exact heard
  | @last e s member held only there =>
      have ⟨s', there', _, accepted⟩ := owned.registered e member
      obtain rfl := Option.some.inj (there.symm.trans there')
      have ⟨ms, r, h, followed, _, shut, _⟩ := shutdown_eager (r := d.running s) {} accepted
      have still : Heard r.files := Heard.follow (r := d.running s) heard followed
      rw [shut]
      exact still

end Collect.Desk

namespace Watch

/-- The watcher is closed, and its job stays. -/
def shut (w : Watch) : Watch := { w with watcher := w.watcher.close.2 }

theorem closed_shut (w : Watch) : w.shut.watcher.closed = true := by
  unfold shut Watch.Watcher.close
  dsimp only
  split
  · assumption
  · rfl

/-- What a watcher is shown neither closes nor opens it. -/
theorem closed_observe (now : Nat) (changes : List Files.Change) (w : Watch.Watcher) :
    (changes.foldl (fun w c => w.observe now c) w).closed = w.closed := by
  induction changes generalizing w with
  | nil => rfl
  | cons c changes ih =>
      rw [List.foldl_cons, ih]
      unfold Watch.Watcher.observe
      split <;> rfl

end Watch

variable [PatternLanguage]

namespace Engine

/-- What a watcher tells when it is closed. -/
def lastWords (s : Engine) (id : Nat) : List LogEvent :=
  (s.watches[id]?.map fun w => w.watcher.close.1).getD []

theorem closeWatch_eq (s : Engine) (id : Nat) : s.closeWatch id =
    { s with watches := s.watches.modify id Watch.shut }.tell (s.lastWords id) := by
  unfold closeWatch lastWords
  cases there : s.watches[id]? with
  | none =>
      have outside : s.watches.modify id Watch.shut = s.watches :=
        List.modify_eq_self (List.getElem?_eq_none_iff.mp there)
      rw [outside]
      exact (tell_nil s).symm
  | some w =>
      have same : s.watches.modify id (fun x => { x with watcher := w.watcher.close.2 }) =
          s.watches.modify id Watch.shut := by
        refine List.ext_getElem? fun i => ?_
        rw [List.getElem?_modify, List.getElem?_modify]
        by_cases here : id = i
        · rw [← here, there]
          simp [Watch.shut]
        · simp only [here, if_false]
      rw [Option.map_some, Option.getD_some, ← same]
      rfl

/-- A watcher that is closed is closed only once. -/
theorem closeWatch_of_closed {s : Engine} {id : Nat}
    (closed : ∀ w, s.watches[id]? = some w → w.watcher.closed = true) : s.closeWatch id = s := by
  rw [closeWatch]
  cases there : s.watches[id]? with
  | none => rfl
  | some w =>
      have same : s.watches.modify id (fun x => { x with watcher := w.watcher }) = s.watches := by
        refine List.ext_getElem? fun i => ?_
        rw [List.getElem?_modify]
        by_cases here : id = i
        · rw [← here, there]
          simp
        · simp [here]
      dsimp only
      rw [Watch.Watcher.close, if_pos (closed w there), tell_nil, updateWatch, same]

section
variable {before s : Engine} {id : Nat} {ids : List Nat} {p : Provider}

theorem closeProvider_collect {action : Collect.Action} (there : s.providers[id]? = some p)
    (collects : p.plugin = .collect action) :
    s.closeProvider id = (s.atDesk fun d => ((), d.release action.handle)).2 := by
  simp only [closeProvider, there, collects]

theorem closeProvider_watch (there : s.providers[id]? = some p)
    (watches : p.plugin.Watches) :
    s.closeProvider id = match p.watch with
      | some watch => s.closeWatch watch
      | none => s := by
  unfold closeProvider
  simp only [there]
  cases plugin : p.plugin with
  | collect action => exact absurd (plugin ▸ watches) (Plugin.not_watches_collect action)
  | stub closes =>
      obtain ⟨kind, same, -⟩ := plugin ▸ watches
      cases same
  | _ => rfl

/-- The handles and watchers that have come since are in the hands of the providers `ids`,
and there is a handle for each new store. -/
structure Tended (before s : Engine) (ids : List Nat) : Prop where
  owned : s.desk.Owned
  handles : ∀ i store, s.desk.Holds i store → ∃ id ∈ ids, ∃ p action,
    s.providers[id]? = some p ∧ p.plugin = .collect action ∧ action.handle = i
  watches : ∀ i w, before.watches.length ≤ i → s.watches[i]? = some w →
    w.watcher.closed = false → ∃ id ∈ ids, ∃ p, s.providers[id]? = some p ∧
      p.plugin.Watches ∧ p.watch = some i
  stores : ∀ id, before.collect.stores.length ≤ id → id < s.collect.stores.length →
    s.desk.Lent id

/-- A provider of a plugin that a host builds, with a watcher that has come since. -/
def Employed (before s : Engine) (id : Nat) : Prop :=
  ∃ p, s.providers[id]? = some p ∧ p.plugin.kind?.isSome = true ∧
    ∀ i, p.watch = some i → before.watches.length ≤ i

theorem Employed.of_providers {s' : Engine} (employed : Employed before s id)
    (same : s'.providers = s.providers) : Employed before s' id := by
  rwa [Employed, same]

/-- Closing a provider comes back: no writer waits for the reader of a pipe. -/
def Returns (s : Engine) (id : Nat) : Prop :=
  ∀ p action, s.providers[id]? = some p → p.plugin = .collect action →
    ∀ store, s.desk.Holds action.handle store → ¬ (s.desk.release action.handle).Stuck store

/-- Closing providers in turn comes back. -/
def AllReturn (s : Engine) : List Nat → Prop
  | [] => True
  | id :: ids => s.Returns id ∧ AllReturn (s.closeProvider id) ids

/-- Closing a plugin at most ends a watcher, or it gives a handle back. -/
theorem closeProvider_cases (employed : Employed before s id) :
    (s.Returns id ∧ ∃ watches events, s.closeProvider id = { s with watches }.tell events) ∨
    ∃ p action, s.providers[id]? = some p ∧ p.plugin = .collect action ∧
      s.closeProvider id = (s.atDesk fun d => ((), d.release action.handle)).2 := by
  have ⟨p, there, hosted, _⟩ := employed
  rcases Plugin.watches_or_collects hosted with watching | ⟨action, collects⟩
  · refine .inl ⟨fun p' action there' collects => ?_, ?_⟩
    · obtain rfl := Option.some.inj (there.symm.trans there')
      exact absurd (collects ▸ watching) (Plugin.not_watches_collect action)
    · rw [closeProvider_watch there watching]
      split
      · exact ⟨_, _, s.closeWatch_eq _⟩
      · exact ⟨_, [], (tell_nil s).symm⟩
  · exact .inr ⟨p, action, there, collects, closeProvider_collect there collects⟩

/-- Closing a plugin changes no provider and no registry. -/
theorem employed_closeProvider (employed : Employed before s id) :
    (s.closeProvider id).providers = s.providers ∧ (s.closeProvider id).registry = s.registry := by
  rcases closeProvider_cases employed with ⟨_, watches, events, same⟩ | ⟨p, action, _, _, same⟩
  · rw [same]
    exact ⟨rfl, rfl⟩
  · rw [same]
    exact ⟨rfl, rfl⟩

theorem length_watches_closeProvider (s : Engine) (id : Nat) :
    (s.closeProvider id).watches.length = s.watches.length := by
  unfold closeProvider
  split
  · rfl
  · split
    · exact List.length_map _
    · rfl
    · split
      · rw [closeWatch_eq]
        exact List.length_modify ..
      · rfl

namespace Tended

theorem mono (tended : Tended before s ids) {ids' : List Nat} (more : ids ⊆ ids') :
    Tended before s ids' where
  owned := tended.owned
  handles := fun i store holds =>
    have ⟨id, listed, rest⟩ := tended.handles i store holds
    ⟨id, more listed, rest⟩
  watches := fun i w new there opened =>
    have ⟨id, listed, rest⟩ := tended.watches i w new there opened
    ⟨id, more listed, rest⟩
  stores := tended.stores

/-- Work on other things takes nothing out of the hands of the providers, also if there are
more of them and a watcher of theirs. -/
theorem frame {s' : Engine} {ids' : List Nat} (tended : Tended before s ids) (more : ids ⊆ ids')
    (collect : s'.collect = s.collect)
    (providers : ∀ {id : Nat} {p : Provider}, s.providers[id]? = some p →
      s'.providers[id]? = some p)
    (watches : ∀ (i : Nat) (w' : Watch), s'.watches[i]? = some w' → w'.watcher.closed = false →
      (∃ w : Watch, s.watches[i]? = some w ∧ w.watcher.closed = false) ∨
        ∃ id ∈ ids', ∃ p, s'.providers[id]? = some p ∧ p.plugin.Watches ∧
          p.watch = some i) :
    Tended before s' ids' where
  owned := tended.owned.of_registry collect
  handles := by
    intro i store holds
    have held : s.desk.Holds i store := by rwa [Collect.Desk.Holds, desk, ← collect]
    obtain ⟨id, listed, p, action, there, rest⟩ := tended.handles i store held
    exact ⟨id, more listed, p, action, providers there, rest⟩
  watches := by
    intro i w' new there opened
    rcases watches i w' there opened with ⟨w, before, opened⟩ | held
    · obtain ⟨id, listed, p, there, rest⟩ := tended.watches i w new before opened
      exact ⟨id, more listed, p, providers there, rest⟩
    · exact held
  stores := by
    intro id new inside
    rw [Collect.Desk.Lent, desk, collect]
    exact tended.stores id new (collect ▸ inside)

/-- A watcher that is not closed after changes of the files was not closed before. -/
theorem exists_observed {changes : List Files.Change} {i : Nat} {w : Watch}
    (there : (s.observe changes).watches[i]? = some w) (opened : w.watcher.closed = false) :
    ∃ old, s.watches[i]? = some old ∧ old.watcher.closed = false := by
  rw [observe, List.getElem?_map, Option.map_eq_some_iff] at there
  obtain ⟨old, there, rfl⟩ := there
  exact ⟨old, there, (Watch.closed_observe s.now changes old.watcher).symm.trans opened⟩

theorem mem_others {id' : Nat} {p' : Provider} (listed : id' ∈ ids)
    (there : s.providers[id]? = some p) (there' : s.providers[id']? = some p')
    (other : p ≠ p') : id' ∈ ids.filter (· ≠ id) := by
  refine List.mem_filter.mpr ⟨listed, decide_eq_true ?_⟩
  rintro rfl
  exact other (Option.some.inj (there.symm.trans there'))

theorem closeAction (tended : Tended before s ids) (there : s.providers[id]? = some p)
    {action : Collect.Action} (collects : p.plugin = .collect action) (returns : s.Returns id) :
    Tended before (s.atDesk fun d => ((), d.release action.handle)).2 (ids.filter (· ≠ id)) where
  owned := by
    have releases := tended.owned.releases_release action.handle
    exact (tended.owned.releases releases (returns p action there collects)).of_registry rfl
  handles := by
    intro i store holds
    have releases := tended.owned.releases_release action.handle
    have ⟨held, other⟩ := releases.holds holds
    have ⟨id', listed, p', action', there', collects', handle⟩ := tended.handles i store held
    refine ⟨id', mem_others listed there there' ?_, p', action', there', collects', handle⟩
    rintro rfl
    obtain rfl := Plugin.collect.inj (collects.symm.trans collects')
    exact other handle.symm
  watches := by
    intro i w new present opened
    have ⟨old, present', opened'⟩ := exists_observed (s := { s with
      collect := (s.desk.release action.handle).registry
      files := (s.desk.release action.handle).files }) present opened
    have ⟨id', listed, p', there', watching, watch⟩ := tended.watches i old new present' opened'
    refine ⟨id', mem_others listed there there' ?_, p', there', watching, watch⟩
    rintro rfl
    exact Plugin.not_watches_collect action (collects ▸ watching)
  stores := by
    intro store new inside
    have releases := tended.owned.releases_release action.handle
    have given := tended.stores store new (releases.length_stores ▸ inside)
    exact releases.lent.mpr given

theorem closeWatching (tended : Tended before s ids) (there : s.providers[id]? = some p)
    (watching : p.plugin.Watches) :
    Tended before (s.closeProvider id) (ids.filter (· ≠ id)) := by
  have aside {action : Collect.Action} : p.plugin ≠ .collect action := by
    intro collects
    exact Plugin.not_watches_collect action (collects ▸ watching)
  have handles : ∀ i store, s.desk.Holds i store → ∃ id' ∈ ids.filter (· ≠ id), ∃ p action,
      s.providers[id']? = some p ∧ p.plugin = .collect action ∧ action.handle = i := by
    intro i store holds
    have ⟨id', listed, p', action, there', collects, handle⟩ := tended.handles i store holds
    refine ⟨id', mem_others listed there there' ?_, p', action, there', collects, handle⟩
    rintro rfl
    exact aside collects
  have others {i : Nat} {w : Watch} (new : before.watches.length ≤ i)
      (present : s.watches[i]? = some w) (opened : w.watcher.closed = false)
      (other : p.watch ≠ some i) : ∃ id' ∈ ids.filter (· ≠ id), ∃ p,
        s.providers[id']? = some p ∧ p.plugin.Watches ∧ p.watch = some i := by
    have ⟨id', listed, p', there', watching', watch⟩ := tended.watches i w new present opened
    refine ⟨id', mem_others listed there there' ?_, p', there', watching', watch⟩
    rintro rfl
    exact other watch
  rw [closeProvider_watch there watching]
  cases watch : p.watch with
  | none =>
      exact ⟨tended.owned, handles,
        fun i w new present opened => others new present opened (by simp [watch]), tended.stores⟩
  | some watched =>
      dsimp only
      rw [closeWatch_eq]
      refine ⟨tended.owned, handles, fun i w new present opened => ?_, tended.stores⟩
      change (s.watches.modify watched Watch.shut)[i]? = some w at present
      rw [List.getElem?_modify, Option.map_eq_map, Option.map_eq_some_iff] at present
      obtain ⟨old, present, rfl⟩ := present
      by_cases here : watched = i
      · rw [if_pos here, Watch.closed_shut] at opened
        cases opened
      · rw [if_neg here] at opened
        exact others new present opened (by simpa [watch] using here)

/-- A provider that is closed has nothing in its hands any more. -/
theorem closeProvider (tended : Tended before s ids) (employed : Employed before s id)
    (returns : s.Returns id) : Tended before (s.closeProvider id) (ids.filter (· ≠ id)) := by
  have ⟨p, there, hosted, _⟩ := employed
  rcases Plugin.watches_or_collects hosted with watching | ⟨action, collects⟩
  · exact tended.closeWatching there watching
  · rw [closeProvider_collect there collects]
    exact tended.closeAction there collects returns

theorem closeProviders {closing : List Nat} (tended : Tended before s ids)
    (employed : ∀ id ∈ closing, Employed before s id) (returns : AllReturn s closing) :
    Tended before (closing.foldl Engine.closeProvider s) (ids.filter (· ∉ closing)) ∧
      (closing.foldl Engine.closeProvider s).providers = s.providers ∧
      (closing.foldl Engine.closeProvider s).registry = s.registry := by
  induction closing generalizing s ids with
  | nil => simpa using tended
  | cons id closing ih =>
      have first := employed id List.mem_cons_self
      have ⟨providers, registry⟩ := employed_closeProvider first
      have later : ∀ id' ∈ closing, Employed before (s.closeProvider id) id' :=
        fun id' listed => (employed id' (List.mem_cons_of_mem _ listed)).of_providers providers
      have ⟨closed, providers', registry'⟩ :=
        ih (tended.closeProvider first returns.1) later returns.2
      refine ⟨?_, providers'.trans providers, registry'.trans registry⟩
      rw [List.filter_filter] at closed
      refine closed.mono fun id' listed => ?_
      simpa [and_comm] using listed

/-- Once nothing is left to close, closing a provider does nothing. -/
theorem closeProvider_eq (tended : Tended before s []) (employed : Employed before s id) :
    s.closeProvider id = s := by
  have ⟨p, there, hosted, new⟩ := employed
  rcases Plugin.watches_or_collects hosted with watching | ⟨action, collects⟩
  · rw [closeProvider_watch there watching]
    cases watch : p.watch with
    | none => rfl
    | some i =>
        refine closeWatch_of_closed fun w present => ?_
        by_contra opened
        have ⟨id', listed, _⟩ := tended.watches i w (new i watch) present (by simpa using opened)
        cases listed
  · rw [closeProvider_collect there collects]
    have releases := tended.owned.releases_release action.handle
    have same : s.desk.release action.handle = s.desk := by
      generalize s.desk.release action.handle = d at releases ⊢
      cases releases with
      | again => rfl
      | one _ held | last _ held =>
          have ⟨id', listed, _⟩ := tended.handles _ _ held
          cases listed
    rw [atDesk_eq (by rw [same]; rfl) (by rw [same]; rfl), same]
    exact tell_nil s

/-- Every store that has come since has shut down. -/
theorem ended (tended : Tended before s []) : s.collect.shared = [] ∧
    ∀ id, before.collect.stores.length ≤ id → ∀ st, s.collect.stores[id]? = some st →
      st.writerEnded = true := by
  have unshared : ∀ e, e ∉ s.desk.registry.shared := by
    intro e member
    have ⟨count, counted⟩ := tended.owned.counted e member
    have ⟨i, held⟩ := Collect.Desk.holders_pos.mp (count ▸ counted)
    have ⟨id', listed, _⟩ := tended.handles i _ held
    cases listed
  refine ⟨List.eq_nil_iff_forall_not_mem.mpr unshared, fun id new st there => ?_⟩
  have lent := tended.stores id new (List.getElem?_eq_some_iff.mp there).1
  have ⟨st', there', ended⟩ := tended.owned.ended id lent fun e member => absurd member (unshared e)
  obtain rfl := Option.some.inj (there.symm.trans there')
  exact ended

end Tended

/-! ## Whether closing comes back -/

/-- Closing comes back if it does so wherever all is well, and all stays well. -/
theorem allReturn_of_fine (Fine : Engine → Prop)
    (step : ∀ {s : Engine} {id : Nat}, s.desk.Owned → Employed before s id → Fine s →
      s.Returns id ∧ Fine (s.closeProvider id))
    {closing : List Nat} (tended : Tended before s ids)
    (employed : ∀ id ∈ closing, Employed before s id) (fine : Fine s) :
    AllReturn s closing ∧ Fine (closing.foldl closeProvider s) := by
  induction closing generalizing s ids with
  | nil => exact ⟨trivial, fine⟩
  | cons id closing ih =>
      have first := employed id List.mem_cons_self
      have ⟨returns, fine'⟩ := step tended.owned first fine
      have ⟨providers, _⟩ := employed_closeProvider first
      have later : ∀ id' ∈ closing, Employed before (s.closeProvider id) id' :=
        fun id' listed => (employed id' (List.mem_cons_of_mem _ listed)).of_providers providers
      have ⟨others, fine''⟩ := ih (tended.closeProvider first returns) later fine'
      exact ⟨⟨returns, others⟩, fine''⟩

theorem calm_closeProvider (owned : s.desk.Owned) (employed : Employed before s id)
    (calm : s.desk.Calm) :
    s.Returns id ∧ (s.closeProvider id).desk.Calm ∧ (s.closeProvider id).files = s.files := by
  rcases closeProvider_cases employed with
    ⟨returns, watches, events, same⟩ | ⟨p, action, there, collects, same⟩
  · rw [same]
    exact ⟨returns, calm, rfl⟩
  · have releases := owned.releases_release action.handle
    have ⟨calm', files, _⟩ := calm.releases owned releases
    have returns : s.Returns id := by
      intro p' action' there' collects' store held
      obtain rfl := Option.some.inj (there.symm.trans there')
      obtain rfl := Plugin.collect.inj (collects.symm.trans collects')
      exact calm'.not_stuck (releases.lent.mpr held.lent)
    rw [same]
    exact ⟨returns, calm', files⟩

/-- As long as no store has anything to do, closing comes back and changes no file. -/
theorem calm_closeProviders {closing : List Nat} (tended : Tended before s ids)
    (calm : s.desk.Calm) (employed : ∀ id ∈ closing, Employed before s id) :
    AllReturn s closing ∧ (closing.foldl closeProvider s).files = s.files := by
  have ⟨returns, _, files⟩ := allReturn_of_fine
    (fun s' => s'.desk.Calm ∧ s'.files = s.files)
    (fun owned employed fine =>
      have ⟨returns, calm', files⟩ := calm_closeProvider owned employed fine.1
      ⟨returns, calm', files.trans fine.2⟩)
    tended employed ⟨calm, rfl⟩
  exact ⟨returns, files⟩

theorem heard_closeProvider (owned : s.desk.Owned) (employed : Employed before s id)
    (heard : Collect.Heard s.files) :
    s.Returns id ∧ Collect.Heard (s.closeProvider id).files := by
  have heard_release (action : Collect.Action) :
      Collect.Heard (s.desk.release action.handle).files :=
    (owned.releases_release action.handle).heard owned heard
  refine ⟨fun _ action _ _ store _ =>
    Collect.Desk.not_stuck_of_heard (heard_release action) store, ?_⟩
  rcases closeProvider_cases employed with ⟨_, watches, events, same⟩ | ⟨p, action, _, _, same⟩
  · rw [same]
    exact heard
  · rw [same]
    exact heard_release action

/-! ## Closing a host -/

theorem sweep_cases (s : Engine) (id : Nat) : s.sweep id = s ∨ s.sweep id = s.closeProvider id := by
  unfold sweep
  split
  · exact .inl rfl
  · split
    · exact .inl rfl
    · exact .inr rfl

/-- Nothing is registered any more. -/
def emptied (s : Engine) : Engine :=
  { s with registry := { s.registry with providers := [] } }

/-- Once nothing is left to close, the registry is only emptied. -/
theorem closeAll_eq (tended : Tended before s [])
    (employed : ∀ id ∈ s.registry.providers.map (·.2), Employed before s id) :
    s.closeAll = s.emptied := by
  have tended : Tended before s.emptied [] :=
    ⟨tended.owned, tended.handles, tended.watches, tended.stores⟩
  have fixed {f : Engine → Nat → Engine}
      (same : ∀ id ∈ s.registry.providers.map (·.2), f s.emptied id = s.emptied) :
      (s.registry.providers.map (·.2)).foldl f s.emptied = s.emptied :=
    List.foldlRecOn (motive := (· = s.emptied)) _ f rfl fun s' here id listed => by
      rw [here, same id listed]
  have closed : ∀ id ∈ s.registry.providers.map (·.2),
      s.emptied.closeProvider id = s.emptied :=
    fun id listed => tended.closeProvider_eq (employed id listed)
  change (s.registry.providers.map (·.2)).foldl sweep
    ((s.registry.providers.map (·.2)).foldl closeProvider s.emptied) = s.emptied
  rw [fixed closed]
  refine fixed fun id listed => ?_
  rcases s.emptied.sweep_cases id with same | same
  · exact same
  · rw [same, closed id listed]

end

/-- Nothing is registered, and no store is open for a handle. -/
structure Idle (s : Engine) : Prop where
  unregistered : s.registry.providers = []
  unshared : s.collect.shared = []
  owned : s.desk.Owned

/-- Nothing that has come since is open any more. -/
structure Left (before s : Engine) : Prop extends Idle s where
  stores : ∀ id, before.collect.stores.length ≤ id → ∀ st, s.collect.stores[id]? = some st →
    st.writerEnded = true
  watches : ∀ id, before.watches.length ≤ id → ∀ w, s.watches[id]? = some w →
    w.watcher.closed = true

end Engine

namespace Host
variable {h : Host} {before s : Engine} {ids : List Nat}

/-- The plugins of a host are at work, and what has come with them is in the hands of `ids`. -/
structure Tends (h : Host) (before s : Engine) (ids : List Nat) : Prop where
  tended : Tended before s ids
  within : ids ⊆ h.closingOrder
  employed : ∀ id ∈ h.closingOrder, Employed before s id
  registered : s.registry.providers.map (·.2) ⊆ h.closingOrder

namespace Tends

/-- Closing a host comes back if every pipe has a reader. -/
theorem returns (tends : h.Tends before s ids) (heard : Collect.Heard s.files) :
    s.AllReturn h.closingOrder :=
  (allReturn_of_fine (fun s => Collect.Heard s.files) heard_closeProvider tends.tended
    tends.employed heard).1

/-- Closing a host closes its plugins in turn and empties the registry. -/
theorem close_eq (tends : h.Tends before s ids) (returns : s.AllReturn h.closingOrder) :
    h.close s = (h.closingOrder.foldl closeProvider s).emptied ∧
      Tended before (h.closingOrder.foldl closeProvider s) [] ∧
      (h.closingOrder.foldl closeProvider s).providers = s.providers := by
  have ⟨closed, providers, registry⟩ := tends.tended.closeProviders
    tends.employed returns
  have none : ids.filter (· ∉ h.closingOrder) = [] := by
    refine List.filter_eq_nil_iff.mpr fun id listed => ?_
    simpa using tends.within listed
  rw [none] at closed
  refine ⟨closeAll_eq closed fun id listed => ?_, closed, providers⟩
  rw [registry] at listed
  exact (tends.employed id (tends.registered listed)).of_providers providers

theorem close (tends : h.Tends before s ids) (returns : s.AllReturn h.closingOrder) :
    h.Tends before (h.close s) [] ∧ (h.close s).registry.providers = [] := by
  have ⟨same, closed, providers⟩ := tends.close_eq returns
  rw [same]
  exact ⟨⟨⟨closed.owned, closed.handles, closed.watches, closed.stores⟩, List.nil_subset _,
    fun id listed => (tends.employed id listed).of_providers providers, List.nil_subset _⟩, rfl⟩

/-- Closing a host again does nothing. -/
theorem close_again (tends : h.Tends before s []) (none : s.registry.providers = []) :
    h.close s = s := by
  have closed : h.closingOrder.foldl closeProvider s = s :=
    List.foldlRecOn (motive := (· = s)) _ _ rfl fun s' here id listed => by
      rw [here, tends.tended.closeProvider_eq (tends.employed id listed)]
  have empty : s.emptied = s := by
    rw [emptied, ← none]
  rw [Host.close, closed, closeAll_eq tends.tended (by simp [none]), empty]

theorem left (tends : h.Tends before s []) (none : s.registry.providers = []) :
    Left before s where
  unregistered := none
  unshared := tends.tended.ended.1
  owned := tends.tended.owned
  stores := tends.tended.ended.2
  watches := by
    intro i new w there
    by_contra opened
    have ⟨id, listed, _⟩ := tends.tended.watches i w new there (by simpa using opened)
    cases listed

end Tends
end Host
end LiveRules
