import LiveRules.Proofs.Engine.Generations
import LiveRules.Proofs.Engine.Providers
import LiveRules.Proofs.Lists
import LiveRules.Proofs.Rules.Cycles

/-!
# What sets refer to over whole runs

A rebuild refers to sets that have a provider, and so to sets that are there. As long
as no tag changes hands, the tags of a set stand for the same sets at all its rebuilds.
-/
namespace LiveRules.Engine
variable [PatternLanguage]

/-- Nothing has been built or registered yet. -/
structure Vacant (s : Engine) : Prop where
  sets : ∀ k, s.sets k = {}
  providers : s.providers = []
  tags : s.registry.providers = []

/-- A set is there before it is offered or referred to. -/
structure Rooted (s : Engine) (last : Generations) : Prop where
  offered : ∀ {k provider set}, s.Offers k provider set → set < (s.sets k).composites.length
  referred : ∀ {k id ref}, Generation.Refers (last k) id ref → ref < (s.sets k).composites.length

theorem Vacant.not_offers {s : Engine} (vacant : Vacant s) {k : SetKind} {provider set : Nat} :
    ¬ s.Offers k provider set := by
  rintro ⟨p, present, -⟩
  simp [vacant.providers] at present

theorem Vacant.rooted {s : Engine} (vacant : Vacant s) : Rooted s fun _ _ => none :=
  ⟨fun offers => absurd offers vacant.not_offers, nofun⟩

theorem Rooted.grows {s s' : Engine} {last : Generations} (rooted : Rooted s last)
    (keeps : Keeps s s')
    (grows : ∀ k, (s.sets k).composites.length ≤ (s'.sets k).composites.length) :
    Rooted s' last :=
  ⟨fun offers => (rooted.offered (keeps.offers.mp offers)).trans_le (grows _),
    fun refers => (rooted.referred refers).trans_le (grows _)⟩

theorem Rooted.keeps {s s' : Engine} {last : Generations} (rooted : Rooted s last)
    (keeps : Keeps s s') (same : SameSets s s') : Rooted s' last :=
  rooted.grows keeps fun k => by rw [same k]

theorem composites_compose (s : Engine) (k : SetKind) (c : Composite) (k' : SetKind) :
    ((s.compose k c).sets k').composites =
      if k' = k then (s.sets k').composites ++ [c] else (s.sets k').composites := by
  unfold compose
  split
  · rename_i same
    subst same
    rw [sets_withSets]
    rfl
  · rename_i other
    rw [sets_withSets_other s _ other]

theorem composites_rebuild (s : Engine) (k : SetKind) (id : Nat) (reloading : Bool)
    (k' : SetKind) : ((after (rebuild k.access id reloading) s).sets k').composites =
      (s.sets k').composites := by
  rw [sameSets_rebuild s k id reloading k']
  cases s.generation? k id reloading with
  | none => rfl
  | some g =>
      by_cases same : k' = k
      · subst same
        dsimp only
        rw [sets_withSets]
        rfl
      · dsimp only
        rw [sets_withSets_other s _ same]

/-- The references that a rebuild finds are sets on offer. -/
theorem offers_of_found {s : Engine} {k : SetKind} {id : Nat} {reloading : Bool}
    {g : Generation k.dialect} (found : s.generation? k id reloading = some g) :
    ∃ c, (s.sets k).composites[id]? = some c ∧
      List.Forall₂ (fun tag ref => ∃ provider, s.registry.resolve tag = some provider ∧
        s.Offers k provider ref) c.sets g.references := by
  obtain ⟨c, composite, -, resolved⟩ := Family.generation?_eq_some found
  refine ⟨c, composite, resolved.imp fun tag ref found => ?_⟩
  obtain ⟨provider, p, resolves, present, plugin⟩ := lookupGroup_ok found
  exact ⟨provider, resolves, p, present, plugin⟩

theorem Rooted.below {s : Engine} {last : Generations} (rooted : Rooted s last) {k : SetKind}
    {id : Nat} {reloading : Bool} {g : Generation k.dialect}
    (found : s.generation? k id reloading = some g) :
    ∀ ref ∈ g.references, ref < (s.sets k).composites.length := by
  obtain ⟨c, -, offers⟩ := offers_of_found found
  intro ref listed
  obtain ⟨tag, -, provider, -, offered⟩ := Lists.exists_left offers ref listed
  exact rooted.offered offered

/-- A set that is built refers to older ones only. -/
theorem Rooted.below_built {s : Engine} {last : Generations} (rooted : Rooted s last)
    {k : SetKind} {r : SetRequest} {id : Nat} {g : Generation k.dialect}
    (found : (s.composed k r).generation? k id false = some g) :
    ∀ ref ∈ g.references, ref < (s.sets k).composites.length := by
  obtain ⟨c, -, offers⟩ := offers_of_found found
  intro ref listed
  obtain ⟨tag, -, provider, -, offered⟩ := Lists.exists_left offers ref listed
  exact rooted.offered ((keeps_withSets s k _).offers.mp offered)

theorem Generations.rebuilt_none {s : Engine} {k : SetKind} {id : Nat} {reloading : Bool}
    (last : Generations) (none : s.generation? k id reloading = none) :
    last.rebuilt s k id reloading = last := by
  simp [rebuilt, none]

theorem Generations.rebuilt_other {k k' : SetKind} (last : Generations) (s : Engine) (id : Nat)
    (reloading : Bool) (other : k' ≠ k) : last.rebuilt s k id reloading k' = last k' := by
  unfold rebuilt
  cases s.generation? k id reloading with
  | none => rfl
  | some g => exact Function.update_of_ne other ..

/-- Of all that is known, a rebuild changes what it finds for its own set at most. -/
theorem Generations.rebuilt_cases (last : Generations) (s : Engine) (k : SetKind) (id : Nat)
    (reloading : Bool) (k' : SetKind) (x : Nat) :
    last.rebuilt s k id reloading k' x = last k' x ∨
      k' = k ∧ x = id ∧ ∃ g, s.generation? k' id reloading = some g ∧
        last.rebuilt s k id reloading k' x = some g := by
  by_cases same : k' = k
  · subst same
    cases found : s.generation? k' id reloading with
    | none => exact .inl (by rw [last.rebuilt_none found])
    | some g =>
        have changed := last.rebuilt_some found
        by_cases here : x = id
        · exact .inr ⟨rfl, here, g, rfl, by rw [changed, here, Function.update_self]⟩
        · exact .inl (by rw [changed, Function.update_of_ne here])
  · exact .inl (by rw [last.rebuilt_other s id reloading same])

theorem Rooted.rebuilt {s : Engine} {last : Generations} (rooted : Rooted s last) (k : SetKind)
    (id : Nat) (reloading : Bool) :
    Rooted (after (rebuild k.access id reloading) s) (last.rebuilt s k id reloading) := by
  have before := rooted.grows (keeps_rebuild s k id reloading) fun k' => by
    rw [composites_rebuild]
  refine ⟨before.offered, @fun k' x ref refers => ?_⟩
  obtain ⟨g, known, listed⟩ := refers
  rcases last.rebuilt_cases s k id reloading k' x with unchanged | ⟨rfl, -, g', found, changed⟩
  · exact before.referred ⟨g, unchanged.symm.trans known, listed⟩
  · obtain rfl : g' = g := Option.some.inj (changed.symm.trans known)
    rw [composites_rebuild]
    exact rooted.below found ref listed

theorem length_compose (s : Engine) (k : SetKind) (c : Composite) :
    ((s.compose k c).sets k).composites.length = (s.sets k).composites.length + 1 := by
  rw [composites_compose, if_pos rfl, List.length_append, List.length_singleton]

theorem Rooted.compose {s : Engine} {last : Generations} (rooted : Rooted s last) (k : SetKind)
    (c : Composite) : Rooted (s.compose k c) last := by
  refine rooted.grows (keeps_withSets s k _) fun k' => ?_
  rw [composites_compose]
  split
  · simp
  · exact le_rfl

theorem after_newComposite (s : Engine) (k : SetKind) (c : Composite) :
    after (newComposite k.access c) s = s.compose k c :=
  congrArg Prod.snd (run_newComposite s k c)

theorem Rooted.deed {s : Engine} {last : Generations} (rooted : Rooted s last) (d : Deed) :
    Rooted (d.apply s) (d.note s last) := by
  cases d with
  | compose k c =>
      rw [Deed.apply, after_newComposite]
      exact rooted.compose k c
  | build k r =>
      have rebuilt := (rooted.compose k ⟨r.tag, r.source, r.sets, some s.registry.number⟩).rebuilt
        k (s.sets k).composites.length false
      have same := sameSets_build s k r
      rcases keeps_or_built s k r with keeps | ⟨-, provided⟩
      · exact rebuilt.keeps keeps same
      · obtain ⟨new, offers⟩ := provided.offers
        refine ⟨@fun k' provider set offered => ?_, @fun k' x ref refers => ?_⟩
        · rcases offers.mp offered with old | ⟨-, rfl, rfl⟩
          · rw [Deed.apply, same]
            exact rebuilt.offered old
          · rw [Deed.apply, same, composites_rebuild, length_compose]
            omega
        · rw [Deed.apply, same]
          exact rebuilt.referred refers
  | rebuild k id reloading => exact rooted.rebuilt k id reloading
  | register provider =>
      have same := sameSets_register s provider
      rcases run_register s provider with keeps | ⟨p, -, offers, -⟩
      · exact rooted.keeps keeps same
      · refine ⟨fun offered => ?_, fun refers => ?_⟩
        · rw [Deed.apply, same]
          exact rooted.offered ((offers ..).mp offered)
        · rw [Deed.apply, same]
          exact rooted.referred refers
  | unregister tag => exact rooted.keeps (keeps_unregister s tag) (sameSets_unregister s tag)
  | release provider => exact rooted.keeps (keeps_release s provider) (sameSets_release s provider)
  | closeAll => exact rooted.keeps (keeps_closeAll s) (sameSets_closeAll s)
  | dropRegistry => exact rooted.keeps (keeps_dropRegistry s) (sameSets_dropRegistry s)
  | edit change => exact rooted.keeps (keeps_changeFiles s change) (sameSets_changeFiles s change)

theorem Run.rooted {s₀ s : Engine} {last : Generations} (vacant : Vacant s₀)
    (run : Run s₀ s last) : Rooted s last := by
  induction run with
  | start => exact vacant.rooted
  | deed d _ ih => exact ih.deed d

/-- The deed does not have a tag stand for a provider that is not its own. -/
def Deed.Respects (names : String → Nat) (s : Engine) (d : Deed) : Prop :=
  ∀ provider p, d = .register provider → s.providers[provider]? = some p → names p.tag = provider

/-- A run in which no tag changes hands. -/
inductive SteadyRun (names : String → Nat) (s₀ : Engine) : Engine → Generations → Prop
  | start : SteadyRun names s₀ s₀ fun _ _ => none
  | deed {s : Engine} {last : Generations} (d : Deed) : SteadyRun names s₀ s last →
      d.Respects names s → SteadyRun names s₀ (d.apply s) (d.note s last)

theorem SteadyRun.run {names : String → Nat} {s₀ s : Engine} {last : Generations}
    (steady : SteadyRun names s₀ s last) : Run s₀ s last := by
  induction steady with
  | start => exact .start
  | deed d _ _ ih => exact ih.deed d

/-- The references of a set are those that its tags name once and for all, and a set
that is on offer was built after those that it refers to. -/
structure Settled (names : String → Nat) (s : Engine) (last : Generations) : Prop where
  registered : ∀ {tag provider}, s.registry.resolve tag = some provider → names tag = provider
  named : ∀ {k id g}, last k id = some g → ∃ c, (s.sets k).composites[id]? = some c ∧
    List.Forall₂ (fun tag ref => s.Offers k (names tag) ref) c.sets g.references
  offered : ∀ {k provider set}, s.Offers k provider set →
    ∃ g, last k set = some g ∧ ∀ ref ∈ g.references, ref < set

namespace Settled
variable {names : String → Nat} {s s' : Engine} {last : Generations}

theorem keeps (settled : Settled names s last) (keeps : Keeps s s') (same : SameSets s s') :
    Settled names s' last := by
  refine ⟨fun found => settled.registered (keeps.tags found), @fun k id g found => ?_,
    fun offers => settled.offered (keeps.offers.mp offers)⟩
  obtain ⟨c, composite, references⟩ := settled.named found
  rw [same k]
  exact ⟨c, composite, references.imp fun _ _ => keeps.offers.mpr⟩

theorem compose (settled : Settled names s last) (k : SetKind) (c : Composite) :
    Settled names (s.compose k c) last := by
  have keeps := keeps_withSets s k ((s.sets k).create c).2
  refine ⟨fun found => settled.registered (keeps.tags found), @fun k' id g found => ?_,
    fun offers => settled.offered (keeps.offers.mp offers)⟩
  obtain ⟨old, composite, references⟩ := settled.named found
  refine ⟨old, ?_, references.imp fun _ _ => keeps.offers.mpr⟩
  rw [composites_compose]
  split
  · rwa [List.getElem?_append_left (List.getElem?_eq_some_iff.mp composite).1]
  · exact composite

theorem named_of_found (settled : Settled names s last) {k : SetKind} {id : Nat}
    {reloading : Bool} {g : Generation k.dialect}
    (found : s.generation? k id reloading = some g) :
    ∃ c, (s.sets k).composites[id]? = some c ∧
      List.Forall₂ (fun tag ref => s.Offers k (names tag) ref) c.sets g.references := by
  obtain ⟨c, composite, offers⟩ := offers_of_found found
  refine ⟨c, composite, offers.imp fun tag ref offered => ?_⟩
  obtain ⟨provider, resolves, offered⟩ := offered
  rwa [settled.registered resolves]

/-- A set that was built before finds the references again that it had. -/
theorem references_eq (settled : Settled names s last) {k : SetKind} {id : Nat} {reloading : Bool}
    {g old : Generation k.dialect} (found : s.generation? k id reloading = some g)
    (before : last k id = some old) : g.references = old.references := by
  obtain ⟨c, composite, references⟩ := settled.named_of_found found
  obtain ⟨c', composite', references'⟩ := settled.named before
  obtain rfl : c = c' := Option.some.inj (composite.symm.trans composite')
  have unique : Relator.RightUnique fun tag ref => s.Offers k (names tag) ref :=
    fun _ _ _ => Offers.unique
  exact List.right_unique_forall₂' unique references references'

theorem rebuilt (settled : Settled names s last) (k : SetKind) (id : Nat) (reloading : Bool) :
    Settled names (after (Engine.rebuild k.access id reloading) s)
      (last.rebuilt s k id reloading) := by
  have keeps := keeps_rebuild s k id reloading
  refine ⟨fun found => settled.registered (keeps.tags found), @fun k' x g known => ?_,
    @fun k' provider set offers => ?_⟩
  · rw [composites_rebuild]
    suffices before : ∃ c, (s.sets k').composites[x]? = some c ∧
        List.Forall₂ (fun tag ref => s.Offers k' (names tag) ref) c.sets g.references by
      obtain ⟨c, composite, references⟩ := before
      exact ⟨c, composite, references.imp fun _ _ => keeps.offers.mpr⟩
    rcases last.rebuilt_cases s k id reloading k' x with unchanged | ⟨rfl, rfl, g', found, changed⟩
    · exact settled.named (unchanged.symm.trans known)
    · obtain rfl : g' = g := Option.some.inj (changed.symm.trans known)
      exact settled.named_of_found found
  · obtain ⟨g, known, below⟩ := settled.offered (keeps.offers.mp offers)
    rcases last.rebuilt_cases s k id reloading k' set with same | ⟨rfl, rfl, g', found, new⟩
    · exact ⟨g, same.trans known, below⟩
    · exact ⟨g', new, by rwa [settled.references_eq found known]⟩

theorem provided {k : SetKind} {set : Nat} (settled : Settled names s last)
    (provided : Provided s s' k set) (same : SameSets s s')
    (built : ∃ g, last k set = some g ∧ ∀ ref ∈ g.references, ref < set) :
    Settled names s' last := by
  obtain ⟨new, offers⟩ := provided.offers
  refine ⟨fun found => settled.registered (provided.tags found), @fun k' id g found => ?_,
    @fun k' provider set' offered => ?_⟩
  · obtain ⟨c, composite, references⟩ := settled.named found
    rw [same k']
    exact ⟨c, composite, references.imp fun _ _ offered => offers.mpr (.inl offered)⟩
  · rcases offers.mp offered with old | ⟨-, rfl, rfl⟩
    · exact settled.offered old
    · exact built

theorem build (settled : Settled names s last) (rooted : Rooted s last) (k : SetKind)
    (r : SetRequest) : Settled names ((Deed.build k r).apply s) ((Deed.build k r).note s last) := by
  have rebuilt := (settled.compose k ⟨r.tag, r.source, r.sets, some s.registry.number⟩).rebuilt
    k (s.sets k).composites.length false
  have same := sameSets_build s k r
  rcases keeps_or_built s k r with keeps | ⟨⟨g, found⟩, provided⟩
  · exact rebuilt.keeps keeps same
  · refine rebuilt.provided provided same ⟨g, ?_, rooted.below_built found⟩
    exact (congrFun (last.rebuilt_some found) _).trans (Function.update_self ..)

theorem register (settled : Settled names s last) {provider : Nat}
    (respects : (Deed.register provider).Respects names s) :
    Settled names (after (Engine.register provider) s) last := by
  have same := sameSets_register s provider
  rcases run_register s provider with keeps | ⟨p, present, offers, tags⟩
  · exact settled.keeps keeps same
  · refine ⟨@fun tag i found => ?_, @fun k id g known => ?_,
      fun offered => settled.offered ((offers ..).mp offered)⟩
    · rw [tags] at found
      split at found
      · rename_i own
        obtain rfl := Option.some.inj found
        rw [own]
        exact respects provider p rfl present
      · exact settled.registered found
    · obtain ⟨c, composite, references⟩ := settled.named known
      rw [same k]
      exact ⟨c, composite, references.imp fun _ _ => (offers ..).mpr⟩

theorem deed (settled : Settled names s last) (rooted : Rooted s last) (d : Deed)
    (respects : d.Respects names s) : Settled names (d.apply s) (d.note s last) := by
  cases d with
  | compose k c =>
      rw [Deed.apply, after_newComposite]
      exact settled.compose k c
  | build k r => exact settled.build rooted k r
  | rebuild k id reloading => exact settled.rebuilt k id reloading
  | register provider => exact settled.register respects
  | unregister tag => exact settled.keeps (keeps_unregister s tag) (sameSets_unregister s tag)
  | release provider => exact settled.keeps (keeps_release s provider) (sameSets_release s provider)
  | closeAll => exact settled.keeps (keeps_closeAll s) (sameSets_closeAll s)
  | dropRegistry => exact settled.keeps (keeps_dropRegistry s) (sameSets_dropRegistry s)
  | edit change => exact settled.keeps (keeps_changeFiles s change) (sameSets_changeFiles s change)

theorem acyclic (settled : Settled names s last) (k : SetKind) :
    Generation.Acyclic (last k) := by
  refine Generation.acyclic_of_lt fun id ref refers reached => ?_
  obtain ⟨previous, g, known, listed⟩ := reached
  obtain ⟨c, -, references⟩ := settled.named known
  obtain ⟨tag, -, offered⟩ := Lists.exists_left references id listed
  obtain ⟨g', known', below⟩ := settled.offered offered
  obtain ⟨g'', known'', listed'⟩ := refers
  obtain rfl : g' = g'' := Option.some.inj (known'.symm.trans known'')
  exact below ref listed'

end Settled

theorem SteadyRun.settled {names : String → Nat} {s₀ s : Engine} {last : Generations}
    (vacant : Vacant s₀) (steady : SteadyRun names s₀ s last) : Settled names s last := by
  induction steady with
  | start =>
      refine ⟨fun found => ?_, nofun, fun offers => absurd offers vacant.not_offers⟩
      simp [Registry.resolve, vacant.tags] at found
  | deed d before respects ih => exact ih.deed (before.run.rooted vacant) d respects

end LiveRules.Engine
