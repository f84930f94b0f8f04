import LiveRules.Proofs.Engine.References
import LiveRules.Proofs.Host.Acceptance

/-!
# What the sets of a host refer to when it is built

The tags of a set stand for sets that are there before it. So in a host that is built the
references of every set lead to sets of its kind that were built before, and to those that
have the tags.
-/
namespace LiveRules
open Engine

namespace Family
variable {D : Dialect}

theorem links_create (f : Family D) (c : Composite) (id : Nat) :
    (f.create c).2.groups.links id = f.groups.links id := by
  rw [Groups.links, Groups.links, Family.create, Groups.snapshot_create]

theorem links_publish {f : Family D} {id : Nat} (inside : id < f.groups.published.length)
    (g : Generation D) (other : Nat) : (f.publish id g).groups.links other =
      if other = id then g.references else f.groups.links other := by
  rw [Groups.links, Family.publish, Groups.snapshot_publish inside]
  split
  · have none (m : Member D.Table)
        (own : m ∈ (if D.size g.table = 0 then [] else [.table g.table] : List (Member D.Table))) :
        m.group? = none := by
      split at own
      · cases own
      · rw [List.mem_singleton.mp own]
        rfl
    rw [members, List.filterMap_append, List.filterMap_eq_nil_iff.mpr none, List.nil_append,
      List.filterMap_map]
    exact List.filterMap_some
  · rfl

end Family

variable [PatternLanguage]

namespace Engine

/-- A tag stands for a set. -/
def Names (s : Engine) (k : SetKind) (tag : String) (set : Nat) : Prop :=
  ∃ provider, s.registry.resolve tag = some provider ∧ s.Offers k provider set

theorem Names.unique {s : Engine} {k : SetKind} {tag : String} {set set' : Nat}
    (first : s.Names k tag set) (second : s.Names k tag set') : set = set' := by
  obtain ⟨provider, resolved, offers⟩ := first
  obtain ⟨provider', resolved', offers'⟩ := second
  obtain rfl := Option.some.inj (resolved.symm.trans resolved')
  exact offers.unique offers'

theorem Keeps.names {s s' : Engine} (keeps : Keeps s s') {k : SetKind} {tag : String} {set : Nat}
    (names : s'.Names k tag set) : s.Names k tag set := by
  obtain ⟨provider, resolved, offers⟩ := names
  exact ⟨provider, keeps.tags resolved, keeps.offers.mp offers⟩

theorem names_of_found {s : Engine} {k : SetKind} {c : Composite} {tag : String} {ref : Nat}
    (found : s.lookupGroup k.dialect.capability k.access.pick c tag = .ok ref) :
    s.Names k tag ref := by
  obtain ⟨provider, p, resolved, there, plugin⟩ := lookupGroup_ok found
  exact ⟨provider, resolved, p, there, plugin⟩

/-- The sets of a kind refer to earlier ones, which are those that their tags stand for. -/
structure Linked (s : Engine) (k : SetKind) : Prop where
  length : (s.sets k).groups.published.length = (s.sets k).composites.length
  links : ∀ {id c}, (s.sets k).composites[id]? = some c →
    List.Forall₂ (fun tag ref => ref < id ∧ s.Names k tag ref) c.sets ((s.sets k).groups.links id)
  offered : ∀ {provider set}, s.Offers k provider set → set < (s.sets k).composites.length

theorem Vacant.linked {s : Engine} (vacant : Vacant s) (k : SetKind) : Linked s k where
  length := by
    rw [vacant.sets k]
    rfl
  links := fun there => by simp [vacant.sets k] at there
  offered := fun offers => absurd offers vacant.not_offers

/-- The settings of a build make no difference to what is vacant. -/
theorem Vacant.beginning {s : Engine} (vacant : Vacant s) (c : Settings) :
    Vacant (s.beginning c) where
  sets := fun k => by
    rw [← vacant.sets k]
    cases k <;> rfl
  providers := vacant.providers
  tags := vacant.tags

theorem composites_set (s : Engine) (k : SetKind) : s.composites (.set k) = s.sets k := rfl

end Engine

namespace Blueprint
variable {s s' : Engine} {b : Blueprint} {p : Provider}

/-- The build of a plugin makes one more set, or leaves the sets of the kind alone. -/
theorem Makes.sets (makes : b.Makes s p s') (k : SetKind) :
    (∃ r table refs, b = Blueprint.rules (.set k) r ∧
      s.references (.set k) (s.composite (.set k) r) = .ok refs ∧
      s'.sets k = s.published (.set k) r table refs ∧
      p.plugin = k.plugin (s.sets k).composites.length) ∨
    (s'.sets k = s.sets k ∧ (∀ r, b ≠ Blueprint.rules (.set k) r) ∧
      ∀ set, p.plugin ≠ k.plugin set) := by
  cases makes with
  | @rules k' r table refs event watch s' compiled resolved starts =>
      obtain ⟨journal, watches, rfl⟩ := starts.eq
      have beside : SameSets (s.withComposites k' (s.published k' r table refs))
          { (s.withComposites k' (s.published k' r table refs)).tell [event] with
            journal, watches } := sameSets_of rfl rfl
      rw [beside k, ← composites_set, ← composites_set]
      by_cases same : k' = .set k
      · subst same
        exact .inl ⟨r, table, refs, rfl, resolved, composites_withComposites .., rfl⟩
      · refine .inr ⟨composites_withComposites_other s _ (Ne.symm same), fun r' again => ?_,
          fun set => ?_⟩
        · cases again
          exact same rfl
        · rcases k' with (_ | _) | _ <;> cases k <;>
            simp_all [CompositeKind.plugin, SetKind.plugin]
  | @action a handle d got =>
      have same : SameSets s ({ s with collect := d.registry }.tell d.events) :=
        sameSets_of rfl rfl
      refine .inr ⟨same k, by simp, fun set => ?_⟩
      cases k <;> simp [SetKind.plugin]
  | @gate r g events watch s' loaded starts =>
      obtain ⟨journal, watches, rfl⟩ := starts.eq
      have same : SameSets s { ({ s with gates := s.gates ++ [g] }.tell events) with
        journal, watches } := sameSets_of rfl rfl
      refine .inr ⟨same k, by simp, fun set => ?_⟩
      cases k <;> simp [SetKind.plugin]

theorem sameSets_enlist (s : Engine) (p : Provider) : SameSets s (enlist s p) :=
  sameSets_of rfl rfl

/-- A provider that comes last offers its own set, and the others offer what they did. -/
theorem Makes.offers (makes : b.Makes s p s') {k : SetKind} {provider set : Nat} :
    (enlist s' p).Offers k provider set ↔ s.Offers k provider set ∨
      provider = s.providers.length ∧ p.plugin = k.plugin set := by
  have there : (enlist s' p).providers[provider]? = (s.providers ++ [p])[provider]? := by
    rw [← makes.aside.providers]
    rfl
  rw [Offers, there, Offers]
  rcases lt_trichotomy provider s.providers.length with inside | rfl | outside
  · rw [List.getElem?_append_left inside]
    simp [inside.ne]
  · simp
  · rw [List.getElem?_eq_none (by simp; omega), List.getElem?_eq_none (by omega)]
    simp [outside.ne']

/-- What a tag stands for, it still stands for when another tag is registered. -/
theorem Makes.names (makes : b.Makes s p s') (free : s.registry.resolve b.tag = none)
    {k : SetKind} {tag : String} {set : Nat} (names : s.Names k tag set) :
    (enlist s' p).Names k tag set := by
  obtain ⟨provider, resolved, offers⟩ := names
  refine ⟨provider, ?_, makes.offers.mpr (.inl offers)⟩
  have registry : (enlist s' p).registry = s.registry.insert b.tag s.providers.length := by
    rw [← makes.tag, ← makes.aside.registry, ← makes.aside.providers]
    rfl
  have other : tag ≠ b.tag := by
    rintro rfl
    rw [free] at resolved
    cases resolved
  rw [registry, Registry.resolve_insert _ free, if_neg other]
  exact resolved

end Blueprint

namespace Engine

theorem Linked.enlist {s s' : Engine} {b : Blueprint} {p : Provider} {k : SetKind}
    (linked : Linked s k) (makes : b.Makes s p s') (free : s.registry.resolve b.tag = none) :
    Linked (Blueprint.enlist s' p) k := by
  have kept {id : Nat} {c : Composite} (there : (s.sets k).composites[id]? = some c) :
      List.Forall₂ (fun tag ref => ref < id ∧ (Blueprint.enlist s' p).Names k tag ref) c.sets
        ((s.sets k).groups.links id) :=
    (linked.links there).imp fun tag ref named => ⟨named.1, makes.names free named.2⟩
  rcases makes.sets k with ⟨r, table, refs, -, resolved, sets, plugin⟩ | ⟨sets, -, other⟩
  · have inside : (s.sets k).composites.length <
        ((s.sets k).create (s.composite (.set k) r)).2.groups.published.length := by
      simp [Family.create, Groups.create, linked.length]
    have composites : ((Blueprint.enlist s' p).sets k).composites =
        (s.sets k).composites ++ [s.composite (.set k) r] := by
      rw [Blueprint.sameSets_enlist s' p k, sets]
      rfl
    have links (id : Nat) : ((Blueprint.enlist s' p).sets k).groups.links id =
        if id = (s.sets k).composites.length then refs else (s.sets k).groups.links id := by
      rw [Blueprint.sameSets_enlist s' p k, sets]
      refine (Family.links_publish inside ⟨table, refs⟩ id).trans ?_
      rw [Family.links_create]
    refine ⟨?_, fun {id c} there => ?_, fun {provider set} offers => ?_⟩
    · rw [composites, Blueprint.sameSets_enlist s' p k, sets]
      simp [published, Family.publish, Groups.publish, Family.create, Groups.create]
      exact linked.length
    · rw [composites] at there
      rw [links]
      split
      · rename_i last
        subst last
        obtain rfl : s.composite (.set k) r = c := by simpa using there
        refine (Family.resolve_ok resolved).imp fun tag ref found => ?_
        have named : s.Names k tag ref := names_of_found found
        refine ⟨?_, makes.names free named⟩
        obtain ⟨_, _, offers⟩ := named
        exact linked.offered offers
      · rename_i older
        have below := (List.getElem?_eq_some_iff.mp there).1
        rw [List.length_append, List.length_singleton] at below
        rw [List.getElem?_append_left (by omega)] at there
        exact kept there
    · rw [composites, List.length_append, List.length_singleton]
      rcases makes.offers.mp offers with old | ⟨-, own⟩
      · exact Nat.lt_succ_of_lt (linked.offered old)
      · rw [plugin, plugin_eq_iff] at own
        omega
  · refine ⟨?_, fun {id c} there => ?_, fun {provider set} offers => ?_⟩
    · rw [Blueprint.sameSets_enlist s' p k, sets, linked.length]
    · rw [Blueprint.sameSets_enlist s' p k, sets] at there ⊢
      exact kept there
    · rw [Blueprint.sameSets_enlist s' p k, sets]
      rcases makes.offers.mp offers with old | ⟨-, own⟩
      · exact linked.offered old
      · exact absurd own (other set)

/-- Whatever is built, the sets refer to earlier ones. -/
theorem Builds.linked {h h' : Host} {s s' : Engine} {bs : List Blueprint}
    {result : Except Fault Unit} (builds : Builds h s bs result h' s') (fine : result = .ok ())
    {k : SetKind} (linked : Linked s k) : Linked s' k := by
  induction builds with
  | done => exact linked
  | unbuilt => cases fine
  | dismissed => cases fine
  | enlisted able makes free others ih => exact ih fine (linked.enlist makes free)

end Engine

/-! ## The sets of the settings -/

/-- The set of the kind that is to be built. -/
def Blueprint.set? (k : SetKind) : Blueprint → Option SetRequest
  | rules (.set k') r => if k' = k then some r else none
  | rules .hosts _ | action _ | gate _ => none

/-- The sets of a kind, in the order in which they are built. -/
def Settings.requests (c : Settings) : SetKind → List SetRequest
  | .domains => c.domainSets.map (Host.domainRequest c.reload)
  | .addresses => c.addressSets.map (Host.addressRequest c.reload)

omit [PatternLanguage] in
theorem Settings.filterMap_blueprints (c : Settings) (k : SetKind) :
    c.blueprints.filterMap (Blueprint.set? k) = c.requests k := by
  cases k <;> simp [blueprints, requests, List.filterMap_append, List.filterMap_map,
    Function.comp_def, Blueprint.set?]

namespace Engine

/-- Every set of the kind is built, in turn. -/
theorem Builds.composites {h h' : Host} {s s' : Engine} {bs : List Blueprint}
    {result : Except Fault Unit} (builds : Builds h s bs result h' s') (fine : result = .ok ())
    (k : SetKind) :
    (s'.sets k).composites.map (fun c => (c.tag, c.sets)) =
      (s.sets k).composites.map (fun c => (c.tag, c.sets)) ++
        (bs.filterMap (Blueprint.set? k)).map fun r => (r.tag, r.sets) := by
  induction builds with
  | done => simp
  | unbuilt => cases fine
  | dismissed => cases fine
  | @enlisted h h' s s' s'' b rest p result able makes free others ih =>
      rw [ih fine, Blueprint.sameSets_enlist s' p k]
      rcases makes.sets k with ⟨r, table, refs, rfl, -, sets, -⟩ | ⟨sets, other, -⟩
      · have own : Blueprint.set? k (.rules (.set k) r) = some r := if_pos rfl
        rw [sets, List.filterMap_cons_some own]
        simp [published, Family.publish, Family.create, composite, composites_set]
      · have none : Blueprint.set? k b = none := by
          cases b with
          | rules k' r =>
              cases k' with
              | hosts => rfl
              | set k' => exact if_neg fun same => other r (by rw [same])
          | action a => rfl
          | gate r => rfl
        rw [sets, List.filterMap_cons_none none]

/-- The sets of a kind are those of the settings, and each refers to sets before it that
have the tags. -/
structure Founded (c : Settings) (s : Engine) (k : SetKind) : Prop where
  sets : ((s.sets k).composites.map fun x => (x.tag, x.sets)) =
    (c.requests k).map fun r => (r.tag, r.sets)
  named : ∀ {id r}, (c.requests k)[id]? = some r →
    List.Forall₂ (fun tag ref => ref < id ∧ ((c.requests k)[ref]?).map (·.tag) = some tag) r.sets
      ((s.sets k).groups.links id)

/-- What a tag stands for has the tag. -/
theorem Standing.tag_of_names {s : Engine} {before : List Blueprint} (standing : Standing s before)
    {k : SetKind} {tag : String} {set : Nat} (names : s.Names k tag set) :
    ((s.sets k).composites[set]?).map (·.tag) = some tag := by
  obtain ⟨provider, resolved, p, there, plugin⟩ := names
  obtain ⟨b, listed, rfl⟩ := List.mem_map.mp (standing.only resolved)
  obtain ⟨provider', p', resolved', there', stands⟩ := standing.stands b listed
  obtain rfl := Option.some.inj (resolved.symm.trans resolved')
  obtain rfl := Option.some.inj (there.symm.trans there')
  cases b with
  | rules k' r =>
      obtain ⟨id, x, plugin', composite, tag, -⟩ := stands
      rw [plugin] at plugin'
      cases k' with
      | hosts => cases k <;> cases plugin'
      | set k' =>
          obtain ⟨rfl, rfl⟩ := plugin_eq_iff.mp plugin'
          rw [← composites_set, composite, Option.map_some, tag]
          rfl
  | action a =>
      obtain ⟨handle, h, st, place, plugin', -⟩ := stands
      rw [plugin] at plugin'
      cases k <;> cases plugin'
  | gate r =>
      obtain ⟨id, g, plugin', -⟩ := stands
      rw [plugin] at plugin'
      cases k <;> cases plugin'

theorem Linked.tell {s : Engine} {k : SetKind} (linked : Linked s k) (events : List LogEvent) :
    Linked (s.tell events) k := by
  cases k <;> exact ⟨linked.length, linked.links, linked.offered⟩

theorem Founded.of_same {c : Settings} {s s' : Engine} {k : SetKind} (founded : Founded c s k)
    (composites : (s'.sets k).composites = (s.sets k).composites)
    (links : ∀ id, (s'.sets k).groups.links id = (s.sets k).groups.links id) :
    Founded c s' k where
  sets := by rw [composites, founded.sets]
  named := fun {id r} there => by rw [links]; exact founded.named there

theorem founded_of_builds {s s' : Engine} {c : Settings} (vacant : Vacant s) {k : SetKind}
    (linked : Linked s' k) (standing : Standing s' c.blueprints)
    {h h' : Host} (builds : Builds h s c.blueprints (.ok ()) h' s') : Founded c s' k := by
  have sets := builds.composites rfl k
  rw [vacant.sets k, c.filterMap_blueprints] at sets
  have described (id : Nat) : ((s'.sets k).composites[id]?).map (fun c => (c.tag, c.sets)) =
      ((c.requests k)[id]?).map fun r => (r.tag, r.sets) := by
    rw [← List.getElem?_map, ← List.getElem?_map, sets]
    rfl
  refine ⟨sets, fun {id r} there => ?_⟩
  have same := described id
  rw [there, Option.map_some] at same
  obtain ⟨x, composite, pair⟩ := Option.map_eq_some_iff.mp same
  obtain ⟨-, xsets⟩ := Prod.mk.inj pair
  rw [← xsets]
  refine (linked.links composite).imp fun tag ref named => ⟨named.1, ?_⟩
  have tagged := congrArg (Option.map Prod.fst) (described ref)
  rw [Option.map_map, Option.map_map] at tagged
  exact tagged.symm.trans (standing.tag_of_names named.2)

/-- In a host that is built all references lead to earlier sets. -/
theorem founded_of_build {c : Settings} {s : Engine} {h : Host} (vacant : Vacant s)
    (unshared : s.collect.shared = []) (built : (Host.build c s).1 = .ok h) (k : SetKind) :
    Linked (Host.build c s).2 k ∧ Founded c (Host.build c s).2 k := by
  have ⟨result, h', s', builds, same⟩ := Host.build_cases c s
  rw [same] at built ⊢
  cases result with
  | error e => cases built
  | ok _ =>
      have standing := (builds.judged (standing_beginning c vacant.tags unshared)).2 rfl
      have linked := builds.linked rfl ((vacant.beginning c).linked k)
      have founded := founded_of_builds (vacant.beginning c) linked standing builds
      have told : SameSets s' (s'.tell [Host.ready s']) := sameSets_of rfl rfl
      exact ⟨linked.tell _, founded.of_same (by rw [told k]) fun id => by rw [told k]⟩

end Engine
end LiveRules
