import LiveRules.Proofs.Host.Judging
import LiveRules.Proofs.Host.Shelves

/-!
# Plugins that stand for their blueprints

The plugins that a host has built and registered stand for the blueprints so far. So a
build judges the next blueprint by those plugins as it is judged by their blueprints,
and when it goes well there is one plugin more.
-/
namespace LiveRules
open Engine
variable [PatternLanguage]

namespace Blueprint

/-- A provider stands for what was to be built. -/
def Stands (s : Engine) (p : Provider) : Blueprint → Prop
  | rules k r => ∃ id c, p.plugin = k.plugin id ∧ (s.composites k).composites[id]? = some c ∧
      c.tag = r.tag ∧ c.source = r.source ∧ c.sets = r.sets
  | action a => ∃ (handle : Nat) (h : Collect.Handle) (st : Collect.Store) (place : Files.Location),
      p.plugin = .collect ⟨a.tag, handle, .parse a.format, .parse a.operation⟩ ∧
      s.collect.handles[handle]? = some h ∧ s.collect.stores[h.store]? = some st ∧
      s.files.canonical a.path = .ok place ∧ st.path = place.text
  | gate r => ∃ id g, p.plugin = .gate id ∧ s.gates[id]? = some g ∧ g.tag = r.tag ∧
      g.file = r.whitelist

end Blueprint

namespace Engine

/-- Everything is where it was, and more may have come. -/
structure Extends (s s' : Engine) : Prop where
  files : s'.files = s.files
  providers : ∀ {id : Nat} {p}, s.providers[id]? = some p → s'.providers[id]? = some p
  composites : ∀ (k : CompositeKind) {id : Nat} {c}, (s.composites k).composites[id]? = some c →
    (s'.composites k).composites[id]? = some c
  gates : ∀ {id : Nat} {g}, s.gates[id]? = some g → s'.gates[id]? = some g
  handles : ∀ {id : Nat} {h}, s.collect.handles[id]? = some h → s'.collect.handles[id]? = some h
  stores : ∀ {id : Nat} {st}, s.collect.stores[id]? = some st → s'.collect.stores[id]? = some st

/-- The plugins that are registered are those that were to be built. -/
structure Standing (s : Engine) (before : List Blueprint) : Prop where
  stands : ∀ b ∈ before, ∃ id p, s.registry.resolve b.tag = some id ∧
    s.providers[id]? = some p ∧ b.Stands s p
  only : ∀ {tag id}, s.registry.resolve tag = some id → tag ∈ before.map Blueprint.tag
  distinct : (before.map Blueprint.tag).Nodup
  sorted : s.registry.tags.Pairwise (· < ·)
  shared : ∀ e ∈ s.collect.shared, Blueprint.loads s.files e.path = .ok () ∧
    ∃ st, s.collect.stores[e.store]? = some st ∧ st.path = e.path

namespace Standing
variable {s : Engine} {before : List Blueprint}

/-- The blueprint that a tag belongs to is that of the plugin registered for it. -/
theorem find (standing : Standing s before) (tag : String) :
    match before.find? (·.tag = tag) with
    | none => s.registry.resolve tag = none
    | some b => ∃ id p, s.registry.resolve tag = some id ∧ s.providers[id]? = some p ∧
        b.Stands s p := by
  cases found : before.find? (·.tag = tag) with
  | none =>
      cases resolved : s.registry.resolve tag with
      | none => rfl
      | some id =>
          have ⟨b, listed, same⟩ := List.mem_map.mp (standing.only resolved)
          exact absurd same (by simpa using List.find?_eq_none.mp found b listed)
  | some b =>
      have here : b.tag = tag := by simpa using List.find?_some found
      rw [← here]
      exact standing.stands b (List.mem_of_find?_eq_some found)

theorem pick_plugin (k k' : CompositeKind) (id : Nat) :
    k.access.pick (k'.plugin id) = if k.linked && k' = k then some id else none := by
  rcases k with (_ | _) | _ <;> rcases k' with (_ | _) | _ <;> rfl

/-- A plugin offers a group exactly if its blueprint says so. -/
theorem pick_isSome {b : Blueprint} {p : Provider} (stands : b.Stands s p) (k : CompositeKind) :
    (k.access.pick p.plugin).isSome = b.offers k := by
  cases b with
  | rules k' r =>
      obtain ⟨id, c, plugin, -⟩ := stands
      rw [plugin, pick_plugin, Blueprint.offers]
      split <;> simp_all
  | action a =>
      obtain ⟨handle, h, st, place, plugin, -⟩ := stands
      rw [plugin]
      rcases k with (_ | _) | _ <;> rfl
  | gate r =>
      obtain ⟨id, g, plugin, -⟩ := stands
      rw [plugin]
      rcases k with (_ | _) | _ <;> rfl

/-- A composite finds the groups of exactly those tags that refer to sets before it. -/
theorem resolve_eq (standing : Standing s before) {k : CompositeKind} {c : Composite}
    (linked : c.registry = if k.linked then some s.registry.number else none)
    (tags : List String) :
    (Family.resolve (s.lookupGroup k.dialect.capability k.access.pick c) tags).map (fun _ => ()) =
      Blueprint.refer k before tags := by
  induction tags with
  | nil => rfl
  | cons tag tags ih =>
      have found := standing.find tag
      rw [Family.resolve, Blueprint.refer, lookupGroup, linked]
      cases isLinked : k.linked with
      | false => rfl
      | true =>
          simp only [if_true, bne_self_eq_false, Bool.false_eq_true, if_false, Bool.true_eq_false]
          cases named : before.find? (·.tag = tag) with
          | none =>
              simp only [named] at found
              rw [found]
              rfl
          | some b =>
              simp only [named] at found
              obtain ⟨id, p, resolved, there, stands⟩ := found
              have offers := pick_isSome stands k
              simp only [resolved, there, Option.map_some, Option.bind_some]
              cases picked : k.access.pick p.plugin with
              | none =>
                  rw [picked] at offers
                  rw [← offers]
                  rfl
              | some group =>
                  rw [picked] at offers
                  rw [← offers, ← ih]
                  cases Family.resolve (s.lookupGroup k.dialect.capability k.access.pick c) tags <;>
                    rfl

/-- A store can be opened, or is open already. -/
theorem get_eq (standing : Standing s before) (path : String) :
    (match (s.desk.get path).1 with
      | .error e => .error (.collect e)
      | .ok _ => .ok () : Except Fault Unit) = match s.files.canonical path with
        | .error cause => .error (.collect (.badPath path cause))
        | .ok place => Blueprint.loads s.files place.text := by
  have files : s.desk.files = s.files := rfl
  unfold Collect.Desk.get
  rw [files]
  cases s.files.canonical path with
  | error cause => rfl
  | ok place =>
      dsimp only
      cases found : s.desk.registry.shared.find? (·.path = place.text) with
      | some e =>
          have listed := List.mem_of_find?_eq_some found
          have here : e.path = place.text := by simpa using List.find?_some found
          rw [← here, (standing.shared e listed).1]
      | none =>
          rw [← Blueprint.loads_eq s.files s.desk.registry.config place.text]
          simp only [Collect.Desk.openStore, files]
          cases Collect.Store.load s.files s.desk.registry.config place.text <;> rfl

theorem reload_eq (r : GateRequest) (now : Nat) (files : Files.Tree) (runtime : Bool) :
    (match (r.gate now).reload files with
      | .error e => .error e
      | .ok _ => watchable files runtime r.watch?) =
      (Blueprint.gate r).construction files runtime before := by
  rw [Blueprint.construction, Intel.Gate.reload, GateRequest.gate]
  cases whitelist : r.whitelist with
  | none => simp only [GateRequest.watch?, whitelist, watchable]
  | some path =>
      dsimp only
      cases Intel.WhitelistFile.load files path with
      | error e => rfl
      | ok file =>
          dsimp only
          rw [Intel.Whitelist.apply, Intel.Whitelist.storeAddresses]
          cases Intel.Whitelist.networks file.ips <;> rfl

/-- A build judges a blueprint by the plugins before it as it is judged by their
blueprints. -/
theorem construct_eq (standing : Standing s before) (b : Blueprint) :
    b.construct s = b.construction s.files s.runtime before := by
  cases b with
  | rules k r =>
      have same := standing.resolve_eq (k := k) (c := s.composite k r) rfl r.sets
      have sets : (s.composite k r).sets = r.sets := rfl
      rw [Blueprint.construct, Blueprint.construction, references, sets, ← same]
      cases k.dialect.compile r.source s.files with
      | error e => rfl
      | ok table =>
          dsimp only
          cases Family.resolve
            (s.lookupGroup k.dialect.capability k.access.pick (s.composite k r)) r.sets <;> rfl
  | action a =>
      rw [Blueprint.construct, Blueprint.construction]
      split
      · rfl
      · exact standing.get_eq a.path
  | gate r => exact reload_eq r s.now s.files s.runtime

end Standing

theorem kept_composites {s s' : Engine} (domains : s'.domainSets = s.domainSets)
    (addresses : s'.addressSets = s.addressSets) (hosts : s'.hostTables = s.hostTables) :
    ∀ (k : CompositeKind) {id : Nat} {c : Composite},
      (s.composites k).composites[id]? = some c → (s'.composites k).composites[id]? = some c := by
  intro k id c there
  rwa [composites_congr domains addresses hosts]

namespace Extends
variable {s s' s'' : Engine}

theorem trans (first : Extends s s') (second : Extends s' s'') : Extends s s'' where
  files := second.files.trans first.files
  providers there := second.providers (first.providers there)
  composites k _ _ there := second.composites k (first.composites k there)
  gates there := second.gates (first.gates there)
  handles there := second.handles (first.handles there)
  stores there := second.stores (first.stores there)

theorem stands (extends_ : Extends s s') {b : Blueprint} {p : Provider} (stands : b.Stands s p) :
    b.Stands s' p := by
  cases b with
  | rules k r =>
      obtain ⟨id, c, plugin, there, rest⟩ := stands
      exact ⟨id, c, plugin, extends_.composites k there, rest⟩
  | action a =>
      obtain ⟨handle, h, st, place, plugin, given, opened, canonical, path⟩ := stands
      rw [← extends_.files] at canonical
      exact ⟨handle, h, st, place, plugin, extends_.handles given, extends_.stores opened,
        canonical, path⟩
  | gate r =>
      obtain ⟨id, g, plugin, there, rest⟩ := stands
      exact ⟨id, g, plugin, extends_.gates there, rest⟩

/-- What is told and watched is no part of what is there. -/
theorem beside (s : Engine) (journal : List LogEvent) (watches : List Watch) :
    Extends s { s with journal, watches } :=
  ⟨rfl, id, kept_composites rfl rfl rfl, id, id, id⟩

theorem of_starts {job : Job} {asked : Option Watch.Request} {watch : Option Nat}
    (starts : Starts s job asked watch s') : Extends s s' := by
  obtain ⟨journal, watches, rfl⟩ := starts.eq
  exact beside s journal watches

theorem withComposites (s : Engine) (k : CompositeKind) (r : SetRequest) (table : k.dialect.Table)
    (refs : List Nat) : Extends s (s.withComposites k (s.published k r table refs)) := by
  have unbuilt := unbuilt_withComposites s k (s.published k r table refs)
  refine ⟨unbuilt.files, ?_, fun k' id c there => ?_, ?_, ?_, ?_⟩
  · exact fun there => unbuilt.providers ▸ there
  · by_cases same : k' = k
    · subst same
      rw [composites_withComposites]
      exact Lists.getElem?_append_of_some there
    · rwa [composites_withComposites_other s _ same]
  · exact fun there => by rwa [gates_withComposites]
  · exact fun there => unbuilt.collect ▸ there
  · exact fun there => unbuilt.collect ▸ there

theorem of_gets {path : String} {answer : Except Collect.CollectError Nat} {d : Collect.Desk}
    (gets : s.desk.Gets path answer d) : Extends s { s with collect := d.registry } := by
  cases gets with
  | fails => exact ⟨rfl, id, kept_composites rfl rfl rfl, id, id, id⟩
  | joins =>
      exact ⟨rfl, id, kept_composites rfl rfl rfl, id, Lists.getElem?_append_of_some, id⟩
  | opens =>
      exact ⟨rfl, id, kept_composites rfl rfl rfl, id, Lists.getElem?_append_of_some,
        Lists.getElem?_append_of_some⟩

theorem gate (s : Engine) (g : Intel.Gate) : Extends s { s with gates := s.gates ++ [g] } :=
  ⟨rfl, id, kept_composites rfl rfl rfl, Lists.getElem?_append_of_some, id, id⟩

theorem of_makes {b : Blueprint} {p : Provider} (makes : b.Makes s p s') : Extends s s' := by
  cases makes with
  | rules compiled resolved starts =>
      exact ((withComposites s _ _ _ _).trans (beside _ _ _)).trans (of_starts starts)
  | action got => exact (of_gets got).trans (beside _ _ _)
  | gate loaded starts => exact ((gate s _).trans (beside _ _ _)).trans (of_starts starts)

/-- A provider comes last. -/
theorem enlist (s : Engine) (p : Provider) : Extends s (Blueprint.enlist s p) :=
  ⟨rfl, Lists.getElem?_append_of_some, kept_composites rfl rfl rfl, id, id, id⟩

end Extends

namespace Standing
variable {s s' : Engine} {before : List Blueprint} {b : Blueprint} {p : Provider}

omit [PatternLanguage] in
theorem reload_keeps {g g' : Intel.Gate} {files : Files.Tree} (loaded : g.reload files = .ok g') :
    g'.tag = g.tag ∧ g'.file = g.file := by
  unfold Intel.Gate.reload at loaded
  split at loaded
  · exact Except.ok.inj loaded ▸ ⟨rfl, rfl⟩
  · split at loaded
    · cases loaded
    · split at loaded
      · exact Except.ok.inj loaded ▸ ⟨rfl, rfl⟩
      · cases loaded

/-- What is built stands for what was to be built. -/
theorem stands_of_makes (standing : Standing s before) (makes : b.Makes s p s') :
    b.Stands s' p := by
  cases makes with
  | @rules k r table refs event watch s' compiled resolved starts =>
      have later := (Extends.beside _ _ _).trans (Extends.of_starts starts)
      refine ⟨(s.composites k).composites.length, s.composite k r, rfl,
        later.composites k ?_, rfl, rfl, rfl⟩
      rw [composites_withComposites]
      simp [published, Family.create, Family.publish]
  | @action a handle d got =>
      cases got with
      | @joins loc e place found =>
          have listed := List.mem_of_find?_eq_some found
          have here : e.path = loc.text := by simpa using List.find?_some found
          obtain ⟨-, st, there, path⟩ := standing.shared e listed
          exact ⟨_, ⟨e.store, false⟩, st, loc, rfl, by simp [tell], there, place, path.trans here⟩
      | @opens loc st event events place absent loaded =>
          exact ⟨_, ⟨s.desk.registry.stores.length, false⟩, st, loc, rfl, by simp [tell],
            by simp [tell], place, (Collect.Desk.load_ok loaded).1⟩
  | @gate r g events watch s' loaded starts =>
      obtain ⟨journal, watches, rfl⟩ := starts.eq
      obtain ⟨tag, file⟩ := reload_keeps loaded
      exact ⟨s.gates.length, g, rfl, by simp [tell], tag, file⟩

/-- The stores that are shared can still be opened. -/
theorem shared_of_makes (standing : Standing s before) (makes : b.Makes s p s') :
    ∀ e ∈ s'.collect.shared, Blueprint.loads s'.files e.path = .ok () ∧
      ∃ st, s'.collect.stores[e.store]? = some st ∧ st.path = e.path := by
  cases makes with
  | @rules k r table refs event watch s' compiled resolved starts =>
      have unbuilt := unbuilt_withComposites s k (s.published k r table refs)
      obtain ⟨journal, watches, rfl⟩ := starts.eq
      intro e listed
      have collect : (s.withComposites k (s.published k r table refs)).collect = s.collect :=
        unbuilt.collect
      have files : (s.withComposites k (s.published k r table refs)).files = s.files :=
        unbuilt.files
      simp only [tell, collect, files] at listed ⊢
      exact standing.shared e listed
  | @action a handle d got =>
      cases got with
      | @joins loc e place found =>
          intro x listed
          obtain ⟨old, before, rfl⟩ := List.mem_map.mp listed
          rw [Collect.Shared.path_recount, Collect.Shared.store_recount]
          exact standing.shared old before
      | @opens loc st event events place absent loaded =>
          intro x listed
          rcases List.mem_append.mp listed with before | new
          · obtain ⟨fine, old, there, path⟩ := standing.shared x before
            exact ⟨fine, old, Lists.getElem?_append_of_some there, path⟩
          · obtain rfl := List.mem_singleton.mp new
            have fine := Blueprint.loads_eq s.files s.collect.config loc.text
            have again : Collect.Store.load s.files s.collect.config loc.text = .ok (st, event) :=
              loaded
            rw [again] at fine
            exact ⟨fine.symm, st, by simp [tell, desk], (Collect.Desk.load_ok loaded).1⟩
  | @gate r g events watch s' loaded starts =>
      obtain ⟨journal, watches, rfl⟩ := starts.eq
      exact standing.shared

theorem not_mem_of_free (standing : Standing s before) {tag : String}
    (free : s.registry.resolve tag = none) : tag ∉ before.map Blueprint.tag := by
  intro listed
  obtain ⟨b, member, rfl⟩ := List.mem_map.mp listed
  obtain ⟨id, p, resolved, -⟩ := standing.stands b member
  rw [free] at resolved
  cases resolved

/-- One more plugin is built and registered. -/
theorem enlist (standing : Standing s before) (makes : b.Makes s p s')
    (free : s.registry.resolve b.tag = none) :
    Standing (Blueprint.enlist s' p) (before ++ [b]) := by
  have extended := (Extends.of_makes makes).trans (Extends.enlist s' p)
  have registry : (Blueprint.enlist s' p).registry =
      s.registry.insert b.tag s.providers.length := by
    rw [← makes.tag, ← makes.aside.registry, ← makes.aside.providers]
    rfl
  have there : (Blueprint.enlist s' p).providers[s.providers.length]? = some p := by
    rw [← makes.aside.providers]
    simp [Blueprint.enlist, Blueprint.provide, tell]
  have shared := standing.shared_of_makes makes
  have fresh := standing.not_mem_of_free free
  refine ⟨fun b' member => ?_, fun resolved => ?_, ?_, ?_, shared⟩
  · rw [registry, Registry.resolve_insert _ free]
    rcases List.mem_append.mp member with old | new
    · obtain ⟨id, p', resolved, present, stands⟩ := standing.stands b' old
      have other : b'.tag ≠ b.tag := fun same => fresh (same ▸ List.mem_map_of_mem old)
      rw [if_neg other]
      exact ⟨id, p', resolved, extended.providers present, extended.stands stands⟩
    · rw [List.mem_singleton.mp new, if_pos rfl]
      exact ⟨_, p, rfl, there, (Extends.enlist s' p).stands (standing.stands_of_makes makes)⟩
  · rw [registry, Registry.resolve_insert _ free] at resolved
    split at resolved
    · simp_all
    · rw [List.map_append]
      exact List.mem_append_left _ (standing.only resolved)
  · rw [List.map_append, List.map_singleton]
    exact List.nodup_append.mpr ⟨standing.distinct, by simp, by simpa using fresh⟩
  · rw [registry]
    refine Registry.sorted_insertSorted _ standing.sorted fun listed => ?_
    obtain ⟨e, member, same⟩ := List.mem_map.mp listed
    have none := List.lookup_eq_none_iff.mp free e member
    simp [same] at none

end Standing

end Engine
end LiveRules
