import LiveRules.Pattern.Parser
import LiveRules.Proofs.Host.Acceptance
import LiveRules.Proofs.Host.Bookkeeping

/-!
# What hosts leave behind

While plugins are built, whatever is opened is in the hands of those that are registered, and
nothing is written. So a build that fails can close everything, also what was opened for a
plugin whose tag is taken. A host that was built can do so as well, whatever it has done
since, if no writer waits for ever.
-/
namespace LiveRules
open Engine

namespace Collect

theorem load_resting {files : Files.Tree} {config : Config} {path : String} {s : Store}
    {event : LogEvent} (loaded : Store.load files config path = .ok (s, event)) : s.Resting := by
  unfold Store.load at loaded
  split at loaded
  · cases loaded
    exact ⟨rfl, rfl, rfl, rfl⟩
  · cases loaded
  · cases loaded
    exact ⟨rfl, rfl, rfl, rfl⟩

namespace Desk.Gets
variable {d d' : Desk} {path : String} {handle : Nat}

/-- A call for a handle gives out one handle, and a store comes only with a handle. -/
theorem holds (gets : d.Gets path (.ok handle) d') {i id : Nat} (holds : d'.Holds i id) :
    d.Holds i id ∨ i = handle := by
  cases gets with
  | joins | opens => exact (Lists.getElem?_concat_cases holds).imp_right And.left

theorem lent (gets : d.Gets path (.ok handle) d') {id : Nat} (lent : d.Lent id) : d'.Lent id := by
  have ⟨h, member, same⟩ := lent
  cases gets with
  | joins | opens => exact ⟨h, List.mem_append_left _ member, same⟩

theorem stores (gets : d.Gets path (.ok handle) d') {id : Nat}
    (inside : id < d'.registry.stores.length) : id < d.registry.stores.length ∨ d'.Lent id := by
  cases gets with
  | joins => exact .inl inside
  | @opens loc s =>
      have bound : id < (d.registry.stores ++ [s]).length := inside
      rw [List.length_append, List.length_singleton] at bound
      by_cases old : id < d.registry.stores.length
      · exact .inl old
      · obtain rfl : id = d.registry.stores.length := by omega
        exact .inr ⟨⟨d.registry.stores.length, false⟩,
          List.mem_append_right _ (List.mem_singleton_self _), rfl⟩

theorem calm (gets : d.Gets path (.ok handle) d') (owned : d.Owned) (calm : d.Calm) :
    d'.Calm := by
  intro id s given there
  cases gets with
  | @joins loc e place found =>
      rcases lent_lend rfl given with before | rfl
      · exact calm id s before there
      · exact calm e.store s (owned.lent (List.mem_of_find?_eq_some found)) there
  | @opens loc new event events place absent loaded =>
      rcases Lists.getElem?_concat_cases there with old | ⟨rfl, rfl⟩
      · rcases lent_lend rfl given with before | rfl
        · exact calm id s before old
        · have inside := (List.getElem?_eq_some_iff.mp old).1
          exact absurd inside (Nat.lt_irrefl _)
      · exact load_resting loaded

end Desk.Gets
end Collect

section
variable [PatternLanguage]

namespace Blueprint
variable {s s' : Engine} {b : Blueprint} {p : Provider}

/-- What comes with a plugin: at most one watcher, or one handle. -/
inductive Brings (s : Engine) (p : Provider) (s' : Engine) : Prop
  | nothing (watching : p.plugin.Watches) (collect : s'.collect = s.collect)
      (unwatched : p.watch = none) (watches : s'.watches = s.watches)
  | watcher {w : Watch} (watching : p.plugin.Watches) (collect : s'.collect = s.collect)
      (watched : p.watch = some s.watches.length) (watches : s'.watches = s.watches ++ [w])
  | handle {path : String} {action : Collect.Action} {d : Collect.Desk}
      (collects : p.plugin = .collect action)
      (gets : s.desk.Gets path (.ok action.handle) d) (collect : s'.collect = d.registry)
      (unwatched : p.watch = none) (watches : s'.watches = s.watches)

theorem brings_of_starts {made : Engine} {job : Job} {asked : Option Watch.Request}
    (watching : p.plugin.Watches) (unbuilt : Unbuilt s made)
    (starts : Starts made job asked p.watch s') : Brings s p s' := by
  generalize same : p.watch = watch at starts
  cases starts with
  | none => exact .nothing watching unbuilt.collect same unbuilt.watches
  | @some r events watcher =>
      refine .watcher (w := { watcher, job }) watching unbuilt.collect ?_ ?_
      · rw [same, unbuilt.watches]
      · rw [← unbuilt.watches]

theorem Makes.brings (makes : b.Makes s p s') : Brings s p s' := by
  cases makes with
  | @rules k r table refs event watch s' compiled resolved starts =>
      exact brings_of_starts (k.watches_plugin _) (s.unbuilt_published k r table refs [event])
        starts
  | action got => exact .handle rfl got rfl rfl rfl
  | @gate r g events watch s' loaded starts =>
      exact brings_of_starts ⟨_, rfl, nofun⟩ ((Unbuilt.gate s g).trans (.tell _ events))
        starts

end Blueprint

namespace Engine

/-- Plugins are being built: whatever has been opened is in the hands of the providers `ids`,
and nothing has been written. -/
structure Working (before s : Engine) (ids : List Nat) : Prop where
  files : s.files = before.files
  tended : Tended before s ids
  employed : ∀ id ∈ ids, Employed before s id
  calm : s.desk.Calm
  older : before.watches.length ≤ s.watches.length

namespace Working
variable {before s s' : Engine} {ids : List Nat} {p : Provider}

theorem start (idle : Idle s) (c : Settings) : Working s (s.beginning c) [] where
  files := rfl
  tended := by
    have owned : (s.beginning c).desk.Owned :=
      idle.owned.frame ⟨rfl, rfl, fun id st _ there => ⟨st, there, .refl st⟩⟩
    refine ⟨owned, fun i store held => ?_, fun i w new there _ => ?_, fun id new inside => ?_⟩
    · have ⟨e, listed, _⟩ := idle.owned.held i store held
      have none : e ∈ s.collect.shared := listed
      rw [idle.unshared] at none
      cases none
    · have inside := (List.getElem?_eq_some_iff.mp there).1
      exact absurd inside (Nat.not_lt.mpr new)
    · exact absurd inside (Nat.not_lt.mpr new)
  employed := nofun
  calm := by
    intro id st lent there
    have ⟨st', there', ended⟩ := idle.owned.ended id lent fun e listed => by
      have none : e ∈ s.collect.shared := listed
      rw [idle.unshared] at none
      cases none
    obtain rfl := Option.some.inj (there.symm.trans there')
    exact Collect.Store.resting_of_ended ended
  older := Nat.le_refl _

/-- Nothing that is left of a plugin that cannot be built has to be closed. -/
theorem unbuilt (working : Working before s ids) (nothing : Unbuilt s s') :
    Working before s' ids where
  files := nothing.files.trans working.files
  tended := working.tended.frame (List.Subset.refl _) nothing.collect
    (fun there => by rwa [nothing.providers])
    fun i w there opened => .inl ⟨w, nothing.watches ▸ there, opened⟩
  employed := fun id listed => (working.employed id listed).of_providers nothing.providers
  calm := working.calm.of_registry nothing.collect
  older := by
    rw [nothing.watches]
    exact working.older

theorem provider_provide {id : Nat} {p₀ : Provider} (there : s.providers[id]? = some p₀) :
    (Blueprint.provide s p).providers[id]? = some p₀ :=
  Lists.getElem?_append_of_some there

theorem provider_provide_self (s : Engine) (p : Provider) :
    (Blueprint.provide s p).providers[s.providers.length]? = some p :=
  List.getElem?_concat_length

theorem employed_provide (working : Working before s ids) (aside : Aside s s')
    (brings : Blueprint.Brings s p s') :
    ∀ id ∈ s'.providers.length :: ids, Employed before (Blueprint.provide s' p) id := by
  intro id listed
  rcases List.mem_cons.mp listed with rfl | listed
  · refine ⟨p, provider_provide_self s' p, ?_⟩
    cases brings with
    | nothing watching _ unwatched => exact ⟨watching.hosted, by simp [unwatched]⟩
    | watcher watching _ watched =>
        refine ⟨watching.hosted, fun i same => ?_⟩
        obtain rfl := Option.some.inj (watched.symm.trans same)
        exact working.older
    | handle collects _ _ unwatched =>
        exact ⟨by rw [collects]; rfl, by simp [unwatched]⟩
  · obtain ⟨p₀, there, rest⟩ := working.employed id listed
    exact ⟨p₀, provider_provide (by rw [aside.providers, there]), rest⟩

/-- Whatever comes with a plugin is in the hands of its provider. -/
theorem tended_provide (working : Working before s ids) (aside : Aside s s')
    (brings : Blueprint.Brings s p s') :
    Tended before (Blueprint.provide s' p) (s'.providers.length :: ids) := by
  have older {id : Nat} {p₀ : Provider} (there : s.providers[id]? = some p₀) :
      (Blueprint.provide s' p).providers[id]? = some p₀ :=
    provider_provide (by rw [aside.providers, there])
  have new := provider_provide_self s' p
  have more : ids ⊆ s'.providers.length :: ids := List.subset_cons_self _ _
  cases brings with
  | nothing watching collect unwatched same =>
      exact working.tended.frame more collect older fun i w there opened =>
        .inl ⟨w, same ▸ there, opened⟩
  | watcher watching collect watched added =>
      refine working.tended.frame more collect older fun i w there opened => ?_
      have there : s'.watches[i]? = some w := there
      rw [added] at there
      rcases Lists.getElem?_concat_cases there with before | ⟨rfl, rfl⟩
      · exact .inl ⟨w, before, opened⟩
      · exact .inr ⟨s'.providers.length, List.mem_cons_self, p, new, watching, watched⟩
  | @handle path action d collects gets collect unwatched same =>
      have tended := working.tended
      have desk : (Blueprint.provide s' p).desk.registry = d.registry := collect
      refine ⟨(tended.owned.gets gets).of_registry desk, fun i store held => ?_,
        fun i w since there opened => ?_, fun id since inside => ?_⟩
      · rw [Collect.Desk.Holds, desk] at held
        rcases gets.holds held with before | rfl
        · obtain ⟨id, listed, p₀, action, there, rest⟩ := tended.handles i store before
          exact ⟨id, more listed, p₀, action, older there, rest⟩
        · exact ⟨s'.providers.length, List.mem_cons_self, p, action, new, collects, rfl⟩
      · obtain ⟨id, listed, p₀, there, rest⟩ := tended.watches i w since (same ▸ there) opened
        exact ⟨id, more listed, p₀, older there, rest⟩
      · rw [Collect.Desk.Lent, desk]
        have stored : id < d.registry.stores.length := collect ▸ inside
        rcases gets.stores stored with old | lent
        · exact gets.lent (tended.stores id since old)
        · exact lent

theorem provide (working : Working before s ids) (aside : Aside s s')
    (brings : Blueprint.Brings s p s') :
    Working before (Blueprint.provide s' p) (s'.providers.length :: ids) where
  files := aside.files.trans working.files
  tended := working.tended_provide aside brings
  employed := working.employed_provide aside brings
  calm := by
    cases brings with
    | nothing _ collect | watcher _ collect => exact working.calm.of_registry collect
    | handle _ gets collect =>
        exact (gets.calm working.tended.owned working.calm).of_registry collect
  older := by
    have longer : s.watches.length ≤ s'.watches.length := by
      cases brings with
      | nothing _ _ _ same | handle _ _ _ _ same => rw [same]
      | watcher _ _ _ added =>
          rw [added, List.length_append]
          exact Nat.le_add_right _ _
    exact working.older.trans longer

/-- A plugin that is closed again leaves nothing. -/
theorem closeProvider {id : Nat} (working : Working before s ids)
    (employed : Employed before s id) :
    Working before (s.closeProvider id) (ids.filter (· ≠ id)) := by
  have ⟨returns, calm, files⟩ := calm_closeProvider working.tended.owned employed working.calm
  have ⟨providers, _⟩ := employed_closeProvider employed
  refine ⟨files.trans working.files, working.tended.closeProvider employed returns,
    fun id' listed => ?_, calm, ?_⟩
  · exact (working.employed id' (List.mem_of_mem_filter listed)).of_providers providers
  · rw [length_watches_closeProvider]
    exact working.older

theorem mono (working : Working before s ids) {ids' : List Nat} (more : ids ⊆ ids')
    (employed : ∀ id ∈ ids', Employed before s id) : Working before s ids' where
  files := working.files
  tended := working.tended.mono more
  employed := employed
  calm := working.calm
  older := working.older

/-- A provider that is let go of may be closed. -/
theorem release {id : Nat} (working : Working before s ids) (employed : Employed before s id) :
    Working before (s.release id) ids ∧ (s.release id).registry = s.registry := by
  let left : Engine := { s with held := s.held.erase id }
  have erased : Working before left ids :=
    ⟨working.files, ⟨working.tended.owned, working.tended.handles, working.tended.watches,
      working.tended.stores⟩, working.employed, working.calm, working.older⟩
  change Working before (left.sweep id) ids ∧ (left.sweep id).registry = left.registry
  rcases left.sweep_cases id with same | same
  · rw [same]
    exact ⟨erased, rfl⟩
  · have ⟨providers, registry⟩ := employed_closeProvider (s := left) employed
    rw [same]
    exact ⟨(erased.closeProvider employed).mono (List.filter_subset_self ids)
      fun id' listed => (working.employed id' listed).of_providers providers, registry⟩

/-- A plugin whose tag is taken is closed, whatever came with it. -/
theorem dismiss (working : Working before s ids) (aside : Aside s s')
    (brings : Blueprint.Brings s p s') :
    Working before (Blueprint.dismiss s' p) ids ∧
      (Blueprint.dismiss s' p).registry = s.registry := by
  have provided := working.provide aside brings
  have new := provided.employed _ List.mem_cons_self
  have ⟨providers, registry⟩ := employed_closeProvider new
  have ⟨released, registry'⟩ :=
    (provided.closeProvider new).release (new.of_providers providers)
  have others : (s'.providers.length :: ids).filter (· ≠ s'.providers.length) = ids := by
    rw [List.filter_cons_of_neg (by simp), List.filter_eq_self]
    intro id listed
    have ⟨p₀, there, _⟩ := working.employed id listed
    have inside := (List.getElem?_eq_some_iff.mp there).1
    rw [← aside.providers] at inside
    exact decide_eq_true (Nat.ne_of_lt inside)
  rw [others] at released
  exact ⟨released, (registry'.trans registry).trans aside.registry⟩

end Working

/-- A plugin that is enlisted is in the hands of the host, like those before it. -/
theorem Working.enlist {before s s' : Engine} {b : Blueprint} {p : Provider} {h : Host}
    (working : Working before s h.closingOrder) (aside : Aside s s')
    (brings : Blueprint.Brings s p s') :
    Working before (Blueprint.enlist s' p)
      (h.keep b.kind b.tag s'.providers.length).closingOrder := by
  have provided := working.provide aside brings
  have told : Working before (Blueprint.enlist s' p) (s'.providers.length :: h.closingOrder) :=
    ⟨provided.files, ⟨provided.tended.owned, provided.tended.handles, provided.tended.watches,
      provided.tended.stores⟩, provided.employed, provided.calm, provided.older⟩
  have same {id : Nat} : id ∈ (h.keep b.kind b.tag s'.providers.length).closingOrder ↔
      id ∈ s'.providers.length :: h.closingOrder := by
    rw [Host.mem_closingOrder_keep, List.mem_cons]
  exact told.mono (fun id listed => same.mpr listed)
    fun id listed => told.employed id (same.mp listed)

/-- The providers that are registered. -/
abbrev registered (s : Engine) : List Nat := s.registry.providers.map (·.2)

theorem registered_enlist {s s' : Engine} {b : Blueprint} {p : Provider} {h : Host}
    (aside : Aside s s') (within : s.registered ⊆ h.closingOrder) :
    (Blueprint.enlist s' p).registered ⊆
      (h.keep b.kind b.tag s'.providers.length).closingOrder := by
  intro id listed
  obtain ⟨e, member, rfl⟩ := List.mem_map.mp listed
  rw [Host.mem_closingOrder_keep]
  rcases Registry.mem_insertSorted.mp member with rfl | old
  · exact .inl rfl
  · rw [aside.registry] at old
    exact .inr (within (List.mem_map_of_mem old))

/-- Plugins are built in turn, up to the first that fails. -/
theorem Builds.working {before s s' : Engine} {bs : List Blueprint} {result : Except Fault Unit}
    {h h' : Host} (builds : Builds h s bs result h' s') (working : Working before s h.closingOrder)
    (within : s.registered ⊆ h.closingOrder) :
    Working before s' h'.closingOrder ∧ s'.registered ⊆ h'.closingOrder := by
  induction builds with
  | done => exact ⟨working, within⟩
  | @unbuilt h s s' b rest e refused nothing =>
      refine ⟨working.unbuilt nothing, ?_⟩
      rwa [registered, nothing.registry]
  | @dismissed h s s' b rest p able makes taken =>
      have ⟨closed, registry⟩ := working.dismiss makes.aside makes.brings
      refine ⟨closed, ?_⟩
      rwa [registered, registry]
  | enlisted able makes free others ih =>
      exact ih (working.enlist makes.aside makes.brings) (registered_enlist makes.aside within)

theorem Working.tends {before s : Engine} {h : Host} (working : Working before s h.closingOrder)
    (within : s.registered ⊆ h.closingOrder) : h.Tends before s h.closingOrder where
  tended := working.tended
  within := List.Subset.refl _
  employed := working.employed
  registered := within

end Engine

namespace Host
variable {s : Engine} {h : Host}

/-- A build that fails has closed everything and written nothing, and one that succeeds has
everything in the hands of its plugins. -/
theorem build_working (c : Settings) (idle : Idle s) :
    match (build c s).1 with
    | .error _ => Left s (build c s).2 ∧ (build c s).2.files = s.files
    | .ok h => h.Tends s (build c s).2 (h.closingOrder) ∧ (build c s).2.desk.Calm ∧
        (build c s).2.files = s.files := by
  have ⟨result, h, s', builds, built⟩ := build_cases c s
  have begun : (s.beginning c).registered = [] := by
    have none : (s.beginning c).registry.providers = [] := idle.unregistered
    rw [registered, none, List.map_nil]
  have ⟨working, within⟩ := builds.working (Working.start idle c) (by rw [begun]; nofun)
  have tends := working.tends within
  rw [built]
  cases result with
  | ok _ =>
      have told : Undisturbed s' (s'.tell [ready s']) :=
        .of_eq rfl rfl rfl rfl (List.prefix_append _ _)
      exact ⟨tends.undisturbed told, working.calm, working.files⟩
  | error e =>
      have ⟨returns, files⟩ := calm_closeProviders working.tended working.calm tends.employed
      have ⟨closed, unregistered⟩ := tends.close returns
      have ⟨same, _⟩ := tends.close_eq returns
      refine ⟨closed.left unregistered, ?_⟩
      rw [same]
      exact files.trans working.files

/-- How the closing of a host ends. -/
structure Ends (h : Host) (before : Engine) (b closed : Books) : Prop where
  engine : closed.engine = h.close b.engine
  /-- Stores carry out what was handed in, and nothing else is written. -/
  moves : Relation.ReflTransGen Books.Closes b closed
  settled : ∀ id, before.collect.stores.length ≤ id →
    ∀ st, closed.engine.collect.stores[id]? = some st →
      (b.accounts id).Settles (closed.accounts id) st ∧
        (closed.accounts id).told.Sublist closed.engine.journal
  /-- Nothing comes back, and closing the host again does nothing. -/
  left : ∀ later, Relation.ReflTransGen Books.Lives closed later →
    Left before later.engine ∧ ∀ n, h.close^[n] later.engine = later.engine

theorem Tends.lives {before : Engine} {ids : List Nat} {b b' : Books}
    (tends : h.Tends before b.engine ids) (lives : Relation.ReflTransGen Books.Lives b b') :
    h.Tends before b'.engine ids ∧ b'.engine.registry = b.engine.registry := by
  induction lives with
  | refl => exact ⟨tends, rfl⟩
  | tail _ step ih =>
      have ⟨tends', registry⟩ := step.tends ih.1
      exact ⟨tends', registry.trans ih.2⟩

theorem right_lives {first : Nat} {b b' : Books} (right : b.Right first)
    (lives : Relation.ReflTransGen Books.Lives b b') : b'.Right first := by
  induction lives with
  | refl => exact right
  | tail _ step ih => exact step.right ih

/-- A build that fails leaves nothing behind, wherever it fails. A host that was built leaves
nothing behind either once it is closed, whatever has been done with it since; only a pipe that
nobody reads can keep that from coming to its end. -/
theorem leaves_nothing (c : Settings) (idle : Idle s) :
    (∀ e, (build c s).1 = .error e → Left s (build c s).2 ∧ (build c s).2.files = s.files) ∧
    ∀ h, (build c s).1 = .ok h → ∀ b,
      Relation.ReflTransGen Books.Lives { engine := (build c s).2 } b →
      (Collect.Heard b.engine.files → b.engine.AllReturn h.closingOrder) ∧
      (b.engine.AllReturn h.closingOrder → ∃ closed, h.Ends s b closed) ∧
      ∀ e, h.Turn b.engine e → e = h.close b.engine ∨
        ∃ accounts, Relation.ReflTransGen Books.Lives b ⟨e, accounts⟩ := by
  have outcome := build_working c idle
  constructor
  · intro e failed
    rw [failed] at outcome
    exact outcome
  · intro h built b lives
    rw [built] at outcome
    have ⟨fresh, calm, _⟩ := outcome
    have start : Books.Right s.collect.stores.length { engine := (build c s).2 } := by
      intro id new st there
      have lent := fresh.tended.stores id new (List.getElem?_eq_some_iff.mp there).1
      exact ⟨.start (calm id st lent there), List.nil_sublist _⟩
    have ⟨tends, _⟩ := fresh.lives lives
    refine ⟨tends.returns, fun returns => ?_, fun e turn => b.lives_turn turn⟩
    have ⟨accounts, moves⟩ := Books.closes_close tends returns
    have ⟨closed, unregistered⟩ := tends.close returns
    refine ⟨⟨h.close b.engine, accounts⟩, rfl, moves, fun id new st there => ?_,
      fun later after => ?_⟩
    · exact Books.settled (right_lives start lives) moves new there
        ((closed.left unregistered).stores id new st there)
    · have ⟨still, registry⟩ := closed.lives after
      have none : later.engine.registry.providers = [] := by rw [registry, unregistered]
      exact ⟨still.left none, fun n => Function.iterate_fixed (still.close_again none) n⟩

/-- A build goes well if all blueprints are judged well. -/
theorem isOk_build (c : Settings) (idle : Idle s) :
    (build c s).1.isOk = (Blueprint.judge s.files s.runtime [] c.blueprints).isOk := by
  have ⟨result, h, s', builds, built⟩ := build_cases c s
  have ⟨judged, _⟩ := builds.judged (standing_beginning c idle.unregistered idle.unshared)
  have judged : Blueprint.judge s.files s.runtime [] c.blueprints = result := judged
  rw [built, judged]
  cases result <;> rfl

/-- Actions that collect names into one file. -/
def diaries (tags : List String) : Settings where
  actions := tags.map fun tag => { tag, path := "/c" }

/-- An action on a missing file can be built unless its tag is taken. -/
theorem verdict_diary (before : List Blueprint) (tag : String) :
    (Blueprint.action { tag, path := "/c" }).verdict {} true before =
      if tag ∈ before.map Blueprint.tag then .error (.provider (.duplicate tag)) else .ok () := by
  have named : "/c".isEmpty = false := by decide
  have able : (Blueprint.action { tag, path := "/c" }).construction {} true before = .ok () := by
    simp only [Blueprint.construction, named, Bool.false_eq_true, if_false,
      Collect.Desk.place_missing, Collect.Desk.text_missing, Blueprint.loads,
      Collect.missing_text]
  rw [Blueprint.verdict, able]
  rfl

/-- A store is open for an action that was built. -/
theorem store_diary : ∃ (id : Nat) (st : Collect.Store),
    (build (diaries ["names"]) {}).2.collect.stores[id]? = some st := by
  obtain ⟨result, h, s', builds, built⟩ := build_cases (diaries ["names"]) {}
  obtain ⟨judged, stands⟩ := builds.judged (standing_beginning (diaries ["names"]) rfl rfl)
  have fine : Blueprint.judge {} true [] (diaries ["names"]).blueprints = .ok () := by
    simp [diaries, Settings.blueprints, Blueprint.judge, verdict_diary]
  obtain rfl : result = .ok () := judged.symm.trans fine
  have standing := stands rfl
  obtain ⟨_, _, _, _, handle, given, st, _, _, _, there, _⟩ :=
    standing.stands (.action { tag := "names", path := "/c" })
      (by simp [diaries, Settings.blueprints])
  rw [built]
  exact ⟨given.store, st, there⟩

end Host
end

namespace Host
open scoped Pattern

/-- The second of two actions with one tag is refused, and the store that they share is shut
down. An action alone is built, and closed while a name is on its way to the file. -/
theorem leaves_nothing_diaries :
    Idle {} ∧ (∃ e, (build (diaries ["names", "names"]) {}).1 = .error e) ∧
      Left {} (build (diaries ["names", "names"]) {}).2 ∧
      ∃ h, (build (diaries ["names"]) {}).1 = .ok h ∧ ∃ id b closed,
        Books.Works { engine := (build (diaries ["names"]) {}).2 } id [.add "a.example"] b ∧
        h.Ends {} b closed := by
  have idle : Idle {} := ⟨rfl, rfl, .fresh {} {}⟩
  have refused : (build (diaries ["names", "names"]) {}).1.isOk = false := by
    rw [isOk_build _ idle]
    simp [diaries, Settings.blueprints, Blueprint.judge, verdict_diary, Blueprint.tag, Except.isOk,
      Except.toBool]
  have built : (build (diaries ["names"]) {}).1.isOk = true := by
    rw [isOk_build _ idle]
    simp [diaries, Settings.blueprints, Blueprint.judge, verdict_diary, Except.isOk, Except.toBool]
  obtain ⟨fails, _⟩ := leaves_nothing (diaries ["names", "names"]) idle
  obtain ⟨_, closes⟩ := leaves_nothing (diaries ["names"]) idle
  have working := build_working (diaries ["names"]) idle
  obtain ⟨id, st, there⟩ := store_diary
  generalize build (diaries ["names", "names"]) {} = failed at *
  generalize build (diaries ["names"]) {} = hosted at *
  obtain ⟨_ | h, s⟩ := hosted
  · cases built
  obtain ⟨e | _, s'⟩ := failed
  · have files : s.files = {} := working.2.2
    have works : Books.Works { engine := s } id [.add "a.example"] _ := .moves there rfl
    obtain ⟨returns, ends, -⟩ := closes h rfl _ (.single (.works (by simp) works))
    have heard : Collect.Heard s.files := by simp [files, Collect.Heard]
    obtain ⟨closed, ended⟩ := ends (returns heard)
    exact ⟨idle, ⟨e, rfl⟩, (fails e rfl).1, h, rfl, id, _, closed, works, ended⟩
  · cases refused

end Host
end LiveRules
