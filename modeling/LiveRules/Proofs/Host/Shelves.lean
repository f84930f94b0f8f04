import LiveRules.Proofs.Engine.Providers
import LiveRules.Proofs.Host.Building

/-!
# Plugins by kind

A plugin that is built is registered and kept with those of its kind, unless its tag is
taken. So while plugins are built in turn, the host keeps exactly those that are registered,
and those of one kind have other tags than those of another.
-/
namespace LiveRules
open Engine

namespace Host
variable {h : Host} {kind kind' : PluginKind} {tag : String} {id : Nat} {e : String × Nat}

theorem shelf_keep (h : Host) (kind : PluginKind) (tag : String) (id : Nat)
    (kind' : PluginKind) : (h.keep kind tag id).shelf kind' =
      if kind' = kind then Registry.insertSorted tag id (h.shelf kind) else h.shelf kind' := by
  cases kind <;> cases kind' <;> rfl

theorem mem_keep : e ∈ (h.keep kind tag id).shelf kind' ↔
    (kind' = kind ∧ e = (tag, id)) ∨ e ∈ h.shelf kind' := by
  rw [shelf_keep]
  split
  · rename_i same
    rw [Registry.mem_insertSorted, same]
    simp
  · rename_i other
    simp [other]

theorem PluginKind.mem_all (kind : PluginKind) : kind ∈ PluginKind.all := by
  cases kind <;> decide

theorem mem_closingOrder : id ∈ h.closingOrder ↔ ∃ kind tag, (tag, id) ∈ h.shelf kind := by
  simp only [closingOrder, List.mem_flatMap, List.mem_map, PluginKind.mem_all, true_and,
    Prod.exists, exists_eq_right]

theorem mem_closingOrder_keep {new : Nat} : id ∈ (h.keep kind tag new).closingOrder ↔
    id = new ∨ id ∈ h.closingOrder := by
  simp only [mem_closingOrder, mem_keep, exists_or]
  refine or_congr ⟨?_, ?_⟩ .rfl
  · rintro ⟨_, _, -, same⟩
    exact (Prod.mk.inj same).2
  · rintro rfl
    exact ⟨kind, tag, rfl, rfl⟩

end Host

variable [PatternLanguage]

namespace Blueprint

/-- The engine with a provider that is registered. -/
def enlist (s : Engine) (p : Provider) : Engine :=
  { provide s p with registry := s.registry.insert p.tag s.providers.length }.tell
    [.note .debug .providers "registry" "registered" p.tag]

/-- A provider whose tag is taken is closed again. -/
def dismiss (s : Engine) (p : Provider) : Engine :=
  ((provide s p).closeProvider s.providers.length).release s.providers.length

end Blueprint

namespace Engine

theorem run_register_new (s : Engine) (p : Provider) :
    (register s.providers.length).run.run (Blueprint.provide s p) =
      if (s.registry.resolve p.tag).isSome then
        (.error (.provider (.duplicate p.tag)), Blueprint.provide s p)
      else (.ok (), Blueprint.enlist s p) := by
  have there : (Blueprint.provide s p).providers[s.providers.length]? = some p := by
    simp [Blueprint.provide]
  rw [register, run_get_bind, there]
  have same : (Blueprint.provide s p).registry = s.registry := rfl
  dsimp only
  rw [same]
  cases (s.registry.resolve p.tag).isSome <;> rfl

theorem run_tryCatch {α : Type} (act : Act α) (handle : Fault → Act α) (s : Engine) :
    (tryCatch act handle).run.run s = match act.run.run s with
      | (.ok a, s') => (.ok a, s')
      | (.error e, s') => (handle e).run.run s' := by
  have caught : tryCatch act handle = ExceptT.tryCatch act handle := rfl
  rw [caught, ExceptT.tryCatch, ExceptT.run_mk, StateT.run_bind]
  rcases ran : act.run.run s with ⟨result, s'⟩
  have same : StateT.run act s = (result, s') := ran
  rw [same]
  cases result <;> rfl

/-- A plugin is built and registered, or it is not built, or its tag is taken. -/
theorem run_enroll (s : Engine) (b : Blueprint) :
    match b.construct s with
    | .error e => ∃ s', (Host.enroll b.build).run.run s = (.error e, s') ∧ Unbuilt s s'
    | .ok () => ∃ p s', b.Makes s p s' ∧ (Host.enroll b.build).run.run s =
        if (s.registry.resolve b.tag).isSome then
          (.error (.provider (.duplicate b.tag)), Blueprint.dismiss s' p)
        else (.ok s'.providers.length, Blueprint.enlist s' p) := by
  have built := run_build s b
  rw [Host.enroll, run_bind]
  cases able : b.construct s with
  | error e =>
      simp only [able] at built ⊢
      obtain ⟨s', ran, unbuilt⟩ := built
      rw [ran]
      exact ⟨s', rfl, unbuilt⟩
  | ok _ =>
      simp only [able] at built ⊢
      obtain ⟨p, s', ran, makes⟩ := built
      refine ⟨p, s', makes, ?_⟩
      rw [ran]
      dsimp only
      rw [run_bind, run_tryCatch, run_register_new, makes.tag, makes.aside.registry]
      cases (s.registry.resolve b.tag).isSome <;> rfl

/-- How building plugins in turn goes, up to the first that fails, and which of them the host
kept. -/
inductive Builds : Host → Engine → List Blueprint → Except Fault Unit → Host → Engine → Prop
  | done {h : Host} {s : Engine} : Builds h s [] (.ok ()) h s
  | unbuilt {h : Host} {s s' : Engine} {b : Blueprint} {rest : List Blueprint} {e : Fault}
      (refused : b.construct s = .error e) (unbuilt : Unbuilt s s') :
      Builds h s (b :: rest) (.error e) h s'
  | dismissed {h : Host} {s s' : Engine} {b : Blueprint} {rest : List Blueprint} {p : Provider}
      (able : b.construct s = .ok ()) (makes : b.Makes s p s')
      (taken : (s.registry.resolve b.tag).isSome = true) :
      Builds h s (b :: rest) (.error (.provider (.duplicate b.tag))) h (Blueprint.dismiss s' p)
  | enlisted {h h' : Host} {s s' s'' : Engine} {b : Blueprint} {rest : List Blueprint}
      {p : Provider} {result : Except Fault Unit} (able : b.construct s = .ok ())
      (makes : b.Makes s p s') (free : s.registry.resolve b.tag = none)
      (others : Builds (h.keep b.kind b.tag s'.providers.length) (Blueprint.enlist s' p) rest
        result h' s'') :
      Builds h s (b :: rest) result h' s''

section
variable {h : Host} {s s' : Engine} {kind : PluginKind} {tag : String} {build : Act Nat}

theorem run_shelve_ok {id : Nat} (ran : (Host.enroll build).run.run s = (.ok id, s')) :
    (Host.shelve kind tag build).run.run (h, s) = (.ok (), h.keep kind tag id, s') := by
  change Host.shelve kind tag build (h, s) = _
  simp only [Host.shelve, ran]

theorem run_shelve_error {e : Fault} (ran : (Host.enroll build).run.run s = (.error e, s')) :
    (Host.shelve kind tag build).run.run (h, s) = (.error e, h, s') := by
  change Host.shelve kind tag build (h, s) = _
  simp only [Host.shelve, ran]

end

theorem builds_forM (h : Host) (s : Engine) (bs : List Blueprint) :
    let made := (forM bs fun b => Host.shelve b.kind b.tag b.build).run.run (h, s)
    Builds h s bs made.1 made.2.1 made.2.2 := by
  induction bs generalizing h s with
  | nil => exact .done
  | cons b rest ih =>
      have enrolled := run_enroll s b
      simp only [List.forM_cons] at ih ⊢
      rw [run_bind]
      cases able : b.construct s with
      | error e =>
          simp only [able] at enrolled
          obtain ⟨s', ran, unbuilt⟩ := enrolled
          rw [run_shelve_error ran]
          exact .unbuilt able unbuilt
      | ok _ =>
          simp only [able] at enrolled
          obtain ⟨p, s', makes, ran⟩ := enrolled
          cases found : s.registry.resolve b.tag with
          | some id =>
              rw [found, Option.isSome_some, if_pos rfl] at ran
              rw [run_shelve_error ran]
              exact .dismissed able makes (by rw [found]; rfl)
          | none =>
              rw [found, Option.isSome_none, if_neg Bool.false_ne_true] at ran
              rw [run_shelve_ok ran]
              exact .enlisted able makes found (ih _ _)

/-- The engine when a build begins. -/
def beginning (s : Engine) (c : Settings) : Engine :=
  { s with collect := { s.collect with config := c.collect } }

end Engine

/-- A build of a host ends with the plugins that are kept, or closes them. -/
theorem Host.build_cases (c : Settings) (s : Engine) :
    ∃ result h s', Builds {} (s.beginning c) c.blueprints result h s' ∧
      Host.build c s = match result with
        | .ok _ => (.ok h, s'.tell [Host.ready s'])
        | .error e => (.error e, h.close s') := by
  refine ⟨_, _, _, builds_forM {} (s.beginning c) c.blueprints, ?_⟩
  rw [← Host.buildAll_eq]
  rfl

/-! ## What is kept -/

theorem Blueprint.Makes.kind {s s' : Engine} {b : Blueprint} {p : Provider}
    (makes : b.Makes s p s') : p.plugin.kind? = some b.kind := by
  cases makes with
  | @rules k => rcases k with (_ | _) | _ <;> rfl
  | action => rfl
  | gate => rfl

namespace Host

/-- The host keeps the plugins that are registered, each with those of its kind. -/
structure Kept (h : Host) (s : Engine) : Prop where
  registered : ∀ e, e ∈ s.registry.providers ↔ ∃ kind, e ∈ h.shelf kind
  sorted : ∀ kind, ((h.shelf kind).map (·.1)).Pairwise (· < ·)
  kinds : ∀ {kind e}, e ∈ h.shelf kind → ∃ p, s.providers[e.2]? = some p ∧
    p.plugin.kind? = some kind

namespace Kept
variable {h : Host} {s s' : Engine} {b : Blueprint} {p : Provider}

theorem start (s : Engine) (none : s.registry.providers = []) : Kept {} s where
  registered := fun e => by
    rw [none]
    refine iff_of_false List.not_mem_nil ?_
    rintro ⟨kind, listed⟩
    cases kind <;> cases listed
  sorted := fun kind => by cases kind <;> exact .nil
  kinds := fun {kind e} listed => by cases kind <;> cases listed

/-- A tag that nothing is registered under is on no shelf. -/
theorem not_mem_of_free (kept : h.Kept s) {tag : String}
    (free : s.registry.resolve tag = none) (kind : PluginKind) :
    tag ∉ (h.shelf kind).map (·.1) := by
  intro listed
  obtain ⟨e, member, rfl⟩ := List.mem_map.mp listed
  have none := List.lookup_eq_none_iff.mp free e ((kept.registered e).mpr ⟨kind, member⟩)
  simp at none

theorem enlist (kept : h.Kept s) (makes : b.Makes s p s')
    (free : s.registry.resolve b.tag = none) :
    (h.keep b.kind b.tag s'.providers.length).Kept (Blueprint.enlist s' p) where
  registered := by
    intro e
    have inserted : (Blueprint.enlist s' p).registry.providers =
        Registry.insertSorted p.tag s'.providers.length s'.registry.providers := rfl
    rw [inserted, Registry.mem_insertSorted, makes.tag, makes.aside.registry, kept.registered]
    simp only [mem_keep, exists_or, exists_and_right, exists_eq, true_and]
  sorted := by
    intro kind
    rw [shelf_keep]
    split
    · exact Registry.sorted_insertSorted _ (kept.sorted _) (kept.not_mem_of_free free _)
    · exact kept.sorted kind
  kinds := by
    intro kind e listed
    have appended : (Blueprint.enlist s' p).providers = s'.providers ++ [p] := rfl
    rw [appended]
    rcases mem_keep.mp listed with ⟨rfl, rfl⟩ | old
    · exact ⟨p, List.getElem?_concat_length, makes.kind⟩
    · obtain ⟨p', there, same⟩ := kept.kinds old
      rw [← makes.aside.providers] at there
      exact ⟨p', Lists.getElem?_append_of_some there, same⟩

theorem tell (kept : h.Kept s) (events : List LogEvent) : h.Kept (s.tell events) :=
  ⟨kept.registered, kept.sorted, kept.kinds⟩

/-- A tag stands on at most one shelf, and for one plugin. -/
theorem unique (kept : h.Kept s) (distinct : s.registry.tags.Pairwise (· < ·))
    {kind kind' : PluginKind} {tag : String} {id id' : Nat} (here : (tag, id) ∈ h.shelf kind)
    (there : (tag, id') ∈ h.shelf kind') : kind = kind' ∧ id = id' := by
  have first := (Registry.lookup_eq_some_iff distinct).mpr
    ((kept.registered _).mpr ⟨kind, here⟩)
  have second := (Registry.lookup_eq_some_iff distinct).mpr
    ((kept.registered _).mpr ⟨kind', there⟩)
  obtain rfl := Option.some.inj (first.symm.trans second)
  obtain ⟨p, present, same⟩ := kept.kinds here
  obtain ⟨p', present', same'⟩ := kept.kinds there
  obtain rfl := Option.some.inj (present.symm.trans present')
  exact ⟨Option.some.inj (same.symm.trans same'), rfl⟩

/-- Whichever shelf a plugin is on, a host finds it by its tag. -/
theorem plugin?_eq (kept : h.Kept s) (distinct : s.registry.tags.Pairwise (· < ·))
    {kind : PluginKind} {tag : String} {id : Nat} (listed : (tag, id) ∈ h.shelf kind)
    (there : s.providers[id]? = some p) : h.plugin? s tag = some p.plugin := by
  have own : h.find? s kind tag = some p.plugin := by
    rw [find?, (Registry.lookup_eq_some_iff (kept.sorted kind)).mpr listed, Option.bind_some,
      there]
    rfl
  have found : (h.plugin? s tag).isSome = true := by
    rw [plugin?, List.findSome?_isSome_iff]
    exact ⟨kind, PluginKind.mem_all kind, by rw [own]; rfl⟩
  obtain ⟨plugin, same⟩ := Option.isSome_iff_exists.mp found
  obtain ⟨kind', -, other⟩ := List.exists_of_findSome?_eq_some same
  obtain ⟨id', looked, present⟩ := Option.bind_eq_some_iff.mp other
  have listed' := (Registry.lookup_eq_some_iff (kept.sorted kind')).mp looked
  obtain ⟨rfl, rfl⟩ := kept.unique distinct listed listed'
  rw [same, ← other, own]

theorem plugin?_eq_none (kept : h.Kept s) {tag : String} (missing : tag ∉ s.registry.tags) :
    h.plugin? s tag = none := by
  refine List.findSome?_eq_none_iff.mpr fun kind _ => ?_
  have none : (h.shelf kind).lookup tag = none := by
    refine List.lookup_eq_none_iff.mpr fun e listed => ?_
    have other : tag ≠ e.1 := fun same =>
      missing (same ▸ List.mem_map_of_mem ((kept.registered e).mpr ⟨kind, listed⟩))
    simpa using other
  rw [find?, none, Option.bind_none]

end Kept
end Host

/-- A build that comes to its end keeps what it has registered. -/
theorem Engine.Builds.kept {h h' : Host} {s s' : Engine} {bs : List Blueprint}
    {result : Except Fault Unit} (builds : Builds h s bs result h' s')
    (fine : result = .ok ()) (kept : h.Kept s) : h'.Kept s' := by
  induction builds with
  | done => exact kept
  | unbuilt => cases fine
  | dismissed => cases fine
  | enlisted able makes free others ih => exact ih fine (kept.enlist makes free)

end LiveRules
