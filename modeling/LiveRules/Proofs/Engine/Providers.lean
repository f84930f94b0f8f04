import LiveRules.Proofs.Engine.Attempts
import Mathlib.Data.String.Basic

/-!
# Who stands for which set

A provider stands for one set as long as it lives, and closing it changes nothing
about that. Only a set that is built gets a new provider, and only a provider that
is registered gets a tag.
-/
namespace LiveRules

namespace Registry

theorem lookup_cons_ite (e : String × Nat) (es : List (String × Nat)) (tag : String) :
    (e :: es).lookup tag = if tag = e.1 then some e.2 else es.lookup tag := by
  rw [List.lookup_cons]
  by_cases same : tag = e.1
  · simp [same]
  · rw [beq_false_of_ne same, if_neg same]

theorem resolve_erase (r : Registry) (tag tag' : String) :
    (r.erase tag).resolve tag' = if tag' = tag then none else r.resolve tag' := by
  unfold resolve erase
  dsimp only
  induction r.providers with
  | nil => simp
  | cons e es ih =>
      by_cases gone : e.1 = tag
      · rw [List.filter_cons_of_neg (by simpa using gone), ih, lookup_cons_ite, gone]
        split <;> rfl
      · rw [List.filter_cons_of_pos (by simpa using gone), lookup_cons_ite, lookup_cons_ite, ih]
        split <;> simp_all

theorem resolve_insert {r : Registry} {tag : String} (id : Nat) (free : r.resolve tag = none)
    (tag' : String) :
    (r.insert tag id).resolve tag' = if tag' = tag then some id else r.resolve tag' := by
  unfold resolve insert at *
  dsimp only
  generalize r.providers = es at free
  induction es with
  | nil => exact lookup_cons_ite ..
  | cons e es ih =>
      rw [lookup_cons_ite] at free
      unfold insertSorted
      split
      · exact lookup_cons_ite ..
      · rw [lookup_cons_ite, lookup_cons_ite]
        split at free
        · cases free
        · rename_i other
          rw [ih free]
          by_cases same : tag' = e.1
          · rw [if_pos same, if_pos same, if_neg (by rw [same]; exact Ne.symm other)]
          · rw [if_neg same, if_neg same]

theorem mem_insertSorted {tag : String} {id : Nat} {es : List (String × Nat)} {e : String × Nat} :
    e ∈ insertSorted tag id es ↔ e = (tag, id) ∨ e ∈ es := by
  induction es with
  | nil => simp [insertSorted]
  | cons x es ih =>
      unfold insertSorted
      split
      · simp
      · rw [List.mem_cons, ih, List.mem_cons, or_left_comm]

theorem sorted_insertSorted {tag : String} (id : Nat) {es : List (String × Nat)}
    (sorted : (es.map (·.1)).Pairwise (· < ·)) (free : tag ∉ es.map (·.1)) :
    ((insertSorted tag id es).map (·.1)).Pairwise (· < ·) := by
  induction es with
  | nil => simp [insertSorted]
  | cons x es ih =>
      rw [List.map_cons, List.mem_cons, not_or] at free
      rw [List.map_cons, List.pairwise_cons] at sorted
      unfold insertSorted
      split
      · rename_i less
        simp only [List.map_cons, List.pairwise_cons, List.mem_cons]
        refine ⟨?_, sorted⟩
        rintro other (rfl | later)
        · exact less
        · exact less.trans (sorted.1 other later)
      · rename_i notLess
        rw [List.map_cons, List.pairwise_cons]
        refine ⟨fun other listed => ?_, ih sorted.2 free.2⟩
        obtain ⟨e, member, rfl⟩ := List.mem_map.mp listed
        rcases mem_insertSorted.mp member with rfl | old
        · exact lt_of_le_of_ne (not_lt.mp notLess) (Ne.symm free.1)
        · exact sorted.1 _ (List.mem_map_of_mem old)

/-- The entries of a sorted registry are what the tags resolve to. -/
theorem lookup_eq_some_iff {es : List (String × Nat)} (sorted : (es.map (·.1)).Pairwise (· < ·))
    {tag : String} {id : Nat} : es.lookup tag = some id ↔ (tag, id) ∈ es := by
  constructor
  · intro resolved
    obtain ⟨first, rest, whole, -⟩ := List.lookup_eq_some_iff.mp resolved
    rw [whole]
    exact List.mem_append_right _ List.mem_cons_self
  · intro member
    obtain ⟨first, rest, whole⟩ := List.append_of_mem member
    rw [whole, List.map_append, List.map_cons, List.pairwise_append] at sorted
    refine List.lookup_eq_some_iff.mpr ⟨first, rest, whole, fun e listed => ?_⟩
    have less := sorted.2.2 e.1 (List.mem_map_of_mem listed) tag List.mem_cons_self
    simpa using less.ne'

end Registry

variable [PatternLanguage]

namespace Engine

/-- The provider is one for the set. -/
def Offers (s : Engine) (k : SetKind) (provider set : Nat) : Prop :=
  ∃ p, s.providers[provider]? = some p ∧ p.plugin = k.plugin set

theorem Offers.unique {s : Engine} {k : SetKind} {provider set set' : Nat}
    (first : s.Offers k provider set) (second : s.Offers k provider set') : set = set' := by
  obtain ⟨p, present, plugin⟩ := first
  obtain ⟨p', present', plugin'⟩ := second
  obtain rfl : p = p' := Option.some.inj (present.symm.trans present')
  rw [plugin] at plugin'
  cases k
  · exact Plugin.domainSet.inj plugin'
  · exact Plugin.addressSet.inj plugin'

/-- Providers stand for the sets that they stood for, and tags for the providers,
except for tags that are gone. -/
structure Keeps (s s' : Engine) : Prop where
  tags : ∀ {tag provider}, s'.registry.resolve tag = some provider →
    s.registry.resolve tag = some provider
  offers : ∀ {k provider set}, s'.Offers k provider set ↔ s.Offers k provider set

namespace Keeps

theorem refl (s : Engine) : Keeps s s := ⟨id, .rfl⟩

theorem trans {s s' s'' : Engine} (first : Keeps s s') (second : Keeps s' s'') : Keeps s s'' :=
  ⟨fun found => first.tags (second.tags found), second.offers.trans first.offers⟩

theorem of_eq {s s' : Engine} (registry : s'.registry = s.registry)
    (providers : s'.providers = s.providers) : Keeps s s' := by
  constructor
  · rw [registry]
    exact id
  · intro k provider set
    rw [Offers, Offers, providers]

theorem foldl {f : Engine → Nat → Engine} (keeps : ∀ s id, Keeps s (f s id)) (ids : List Nat)
    (s : Engine) : Keeps s (ids.foldl f s) :=
  List.foldlRecOn ids f (refl s) fun s' before id _ => before.trans (keeps s' id)

end Keeps

theorem keeps_closeProvider (s : Engine) (id : Nat) : Keeps s (s.closeProvider id) := by
  unfold closeProvider
  split
  · exact .refl s
  rename_i p present
  split
  · exact .of_eq rfl rfl
  · rename_i closes stub
    refine ⟨fun found => found, @fun k provider set => ?_⟩
    -- A stub stands for no set, before it is told to close and afterwards.
    simp only [Offers, List.getElem?_set]
    split
    · rename_i same
      subst same
      have inside := (List.getElem?_eq_some_iff.mp present).1
      simp only [inside, if_true, present, Option.some.injEq, exists_eq_left', stub]
      cases k <;> simp [SetKind.plugin]
    · rfl
  · split
    · unfold closeWatch
      split <;> exact .of_eq rfl rfl
    · exact .refl s

theorem keeps_sweep (s : Engine) (id : Nat) : Keeps s (s.sweep id) := by
  unfold sweep
  split
  · exact .refl s
  · split
    · exact .refl s
    · exact keeps_closeProvider s id

theorem keeps_unregister (s : Engine) (tag : String) : Keeps s (s.unregister tag).2 := by
  have erased : Keeps s { s with registry := s.registry.erase tag } :=
    ⟨fun found => by rw [Registry.resolve_erase] at found; split at found <;> simp_all, .rfl⟩
  unfold unregister
  split
  · exact .refl s
  · exact erased.trans (keeps_sweep _ _)

theorem keeps_emptied {s : Engine} {r : Registry} (none : r.providers = []) :
    Keeps s { s with registry := r } := by
  refine ⟨fun found => ?_, .rfl⟩
  simp [Registry.resolve, none] at found

theorem keeps_closeAll (s : Engine) : Keeps s s.closeAll := by
  have closed := (keeps_emptied (s := s) (r := { s.registry with providers := [] }) rfl).trans
    (.foldl keeps_closeProvider (s.registry.providers.map (·.2)) _)
  exact closed.trans (.foldl keeps_sweep (s.registry.providers.map (·.2)) _)

theorem keeps_dropRegistry (s : Engine) : Keeps s s.dropRegistry :=
  (keeps_emptied rfl).trans (.foldl keeps_sweep (s.registry.providers.map (·.2)) _)

theorem keeps_changeFiles (s : Engine)
    (change : Files.Tree → Except Files.ReadError (Files.Tree × List Files.Change)) :
    Keeps s (s.changeFiles change).2 := by
  unfold changeFiles
  split
  · exact .of_eq rfl rfl
  · exact .refl s

theorem keeps_release (s : Engine) (id : Nat) : Keeps s (s.release id) := by
  have dropped : Keeps s { s with held := s.held.erase id } := .of_eq rfl rfl
  exact dropped.trans (keeps_sweep _ id)

theorem keeps_withSets (s : Engine) (k : SetKind) (f : Family k.dialect) :
    Keeps s (s.withSets k f) := by
  cases k <;> exact .of_eq rfl rfl

theorem keeps_rebuild (s : Engine) (k : SetKind) (id : Nat) (reloading : Bool) :
    Keeps s (after (rebuild k.access id reloading) s) := by
  rw [after, run_rebuild_eq]
  split
  · exact .refl s
  · cases k <;> exact .of_eq rfl rfl

theorem keeps_startWatch (s : Engine) (request : Watch.Request) (job : Job) :
    Keeps s (after (startWatch request job) s) := by
  rw [startWatch, after_get_bind]
  dsimp only
  split
  · exact .refl s
  · rw [after, run_bind]
    cases (Watch.Watcher.start s.files request).2 <;> exact .of_eq rfl rfl

/-- A registered tag stands for the provider from now on. -/
theorem run_register (s : Engine) (provider : Nat) :
    Keeps s (after (register provider) s) ∨
      ∃ p, s.providers[provider]? = some p ∧
        (∀ k i set, (after (register provider) s).Offers k i set ↔ s.Offers k i set) ∧
        ∀ tag, (after (register provider) s).registry.resolve tag =
          if tag = p.tag then some provider else s.registry.resolve tag := by
  rw [register, after_get_bind]
  split
  · exact .inl (.refl s)
  · rename_i p present
    cases taken : s.registry.resolve p.tag with
    | some other => exact .inl (.refl s)
    | none => exact .inr ⟨p, present, fun _ _ _ => .rfl, Registry.resolve_insert provider taken⟩

theorem after_map {α β : Type} (f : α → β) (act : Act α) (s : Engine) :
    after (f <$> act) s = after act s := by
  rw [← bind_pure_comp, after, run_bind, after]
  rcases act.run.run s with ⟨result, s'⟩
  cases result <;> rfl

/-- The tags stand for what they stood for, and there is a provider for one more set. -/
structure Provided (s s' : Engine) (k : SetKind) (set : Nat) : Prop where
  tags : ∀ {tag provider}, s'.registry.resolve tag = some provider →
    s.registry.resolve tag = some provider
  offers : ∃ new, ∀ {k' provider set'}, s'.Offers k' provider set' ↔
    s.Offers k' provider set' ∨ provider = new ∧ k' = k ∧ set' = set

theorem Keeps.provided {s s' s'' : Engine} {k : SetKind} {set : Nat} (keeps : Keeps s s')
    (provided : Provided s' s'' k set) : Provided s s'' k set := by
  obtain ⟨new, offers⟩ := provided.offers
  exact ⟨fun found => keeps.tags (provided.tags found), new, fun {k' provider set'} => by
    rw [offers, keeps.offers]⟩

omit [PatternLanguage] in
theorem plugin_eq_iff {k k' : SetKind} {set set' : Nat} :
    k.plugin set = k'.plugin set' ↔ k' = k ∧ set' = set := by
  cases k <;> cases k' <;> simp [SetKind.plugin, eq_comm]

theorem provided_addProvider {s : Engine} {k : SetKind} {set : Nat} {p : Provider}
    (plugin : p.plugin = k.plugin set) : Provided s (after (addProvider p) s) k set := by
  refine ⟨fun found => found, s.providers.length, @fun k' provider set' => ?_⟩
  have present : (after (addProvider p) s).providers[provider]? =
      if provider = s.providers.length then some p else s.providers[provider]? := by
    change (s.providers ++ [p])[provider]? = _
    rw [List.getElem?_append]
    split
    · rw [if_neg (by omega)]
    · rename_i outside
      rw [List.getElem?_eq_none (l := s.providers) (by omega), List.getElem?_singleton]
      congr 1
      simp
      omega
  rw [Offers, present]
  split
  · rename_i same
    have none : s.providers[provider]? = none := List.getElem?_eq_none (by omega)
    simp [Offers, same, plugin, plugin_eq_iff]
  · rename_i other
    simp [Offers, other]

theorem keeps_or_provided {s : Engine} {k : SetKind} {set : Nat} {watch : Act (Option Nat)}
    (keeps : Keeps s (after watch s)) {p : Option Nat → Provider}
    (plugin : ∀ watch, (p watch).plugin = k.plugin set) :
    Keeps s (after (watch >>= fun watch => addProvider (p watch)) s) ∨
      Provided s (after (watch >>= fun watch => addProvider (p watch)) s) k set := by
  rcases ran : watch.run.run s with ⟨result, s'⟩
  rw [after, ran] at keeps
  cases result with
  | error e =>
      rw [after_bind_error ran]
      exact .inl keeps
  | ok w =>
      rw [after_bind_ok ran]
      exact .inr (keeps.provided (provided_addProvider (plugin w)))

/-- The engine with the composite that is made when a set is built. -/
def composed (s : Engine) (k : SetKind) (r : SetRequest) : Engine :=
  s.compose k ⟨r.tag, r.source, r.sets, some s.registry.number⟩

/-- A set gets a provider only after its first rebuild has succeeded. -/
theorem keeps_or_built (s : Engine) (k : SetKind) (r : SetRequest) :
    let n := (s.sets k).composites.length
    let rebuilt := after (rebuild k.access n false) (s.composed k r)
    Keeps rebuilt (after (build k r) s) ∨
      (∃ g, (s.composed k r).generation? k n false = some g) ∧
        Provided rebuilt (after (build k r) s) k n := by
  intro n rebuilt
  have ran := run_rebuild (s.composed k r) k n false
  have unfolded : after (build k r) s = after (rebuild k.access n false >>= fun _ =>
      (if r.wantsWatch then some <$> startWatch r.watch (k.job n) else pure none) >>= fun watch =>
        addProvider ⟨r.tag, k.plugin n, watch⟩) (s.composed k r) := by
    rw [build, buildSet, after_get_bind]
    dsimp only
    rw [after_bind_ok (run_newComposite s k _)]
    split <;> rfl
  rw [unfolded]
  cases found : (s.composed k r).generation? k n false with
  | none =>
      simp only [found] at ran
      obtain ⟨e, ran⟩ := ran
      have failed : rebuilt = s.composed k r := congrArg Prod.snd ran
      rw [after_bind_error ran, failed]
      exact .inl (.refl _)
  | some g =>
      simp only [found] at ran
      obtain ⟨summary, s', ran, -⟩ := ran
      have succeeded : rebuilt = s' := congrArg Prod.snd ran
      rw [after_bind_ok ran, succeeded]
      refine (keeps_or_provided ?_ fun _ => rfl).imp_right fun provided => ⟨⟨g, rfl⟩, provided⟩
      split
      · rw [after_map]
        exact keeps_startWatch ..
      · exact .refl s'

end Engine
end LiveRules
