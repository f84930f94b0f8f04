import LiveRules.Pattern.Parser
import LiveRules.Proofs.Engine.Sets

/-!
# The meaning of sets over whole runs

A run does any deeds in any order: sets are built, rebuilt and reloaded, providers
come and go under their tags, files change. Beside the engine stands the last
generation of every set. A set matches what that generation matches, and what the
sets match now that its tags stood for then.
-/
namespace LiveRules.Engine

section
variable [PatternLanguage]

/-- The last generation of every set. -/
abbrev Generations := (k : SetKind) → Nat → Option (Generation k.dialect)

/-- What is known after a rebuild. -/
def Generations.rebuilt (last : Generations) (s : Engine) (k : SetKind) (id : Nat)
    (reloading : Bool) : Generations :=
  match s.generation? k id reloading with
  | none => last
  | some g => Function.update last k (Function.update (last k) id (some g))

/-- Something that is done to the engine. -/
inductive Deed where
  | compose (k : SetKind) (c : Composite)
  | build (k : SetKind) (r : SetRequest)
  | rebuild (k : SetKind) (id : Nat) (reloading : Bool)
  | register (provider : Nat)
  | unregister (tag : String)
  | release (provider : Nat)
  | closeAll
  | dropRegistry
  | edit (change : Files.Tree → Except Files.ReadError (Files.Tree × List Files.Change))

namespace Deed

def apply (s : Engine) : Deed → Engine
  | .compose k c => after (newComposite k.access c) s
  | .build k r => after (Engine.build k r) s
  | .rebuild k id reloading => after (Engine.rebuild k.access id reloading) s
  | .register provider => after (Engine.register provider) s
  | .unregister tag => (s.unregister tag).2
  | .release provider => s.release provider
  | .closeAll => s.closeAll
  | .dropRegistry => s.dropRegistry
  | .edit change => (s.changeFiles change).2

/-- Only rebuilds make generations; building a set rebuilds it for the first time. -/
def note (s : Engine) (last : Generations) : Deed → Generations
  | .build k r => last.rebuilt (s.compose k ⟨r.tag, r.source, r.sets, some s.registry.number⟩)
      k (s.sets k).composites.length false
  | .rebuild k id reloading => last.rebuilt s k id reloading
  | _ => last

end Deed

/-- A run of deeds with the last generation of every set. -/
inductive Run (s₀ : Engine) : Engine → Generations → Prop
  | start : Run s₀ s₀ fun _ _ => none
  | deed {s : Engine} {last : Generations} (d : Deed) :
      Run s₀ s last → Run s₀ (d.apply s) (d.note s last)

/-- Does the deeds in turn. -/
def deeds (s : Engine) (last : Generations) : List Deed → Engine × Generations
  | [] => (s, last)
  | d :: ds => deeds (d.apply s) (d.note s last) ds

/-- Deeds may be done in any order. -/
theorem Run.deeds {s₀ s : Engine} {last : Generations} (run : Run s₀ s last) (ds : List Deed) :
    Run s₀ (Engine.deeds s last ds).1 (Engine.deeds s last ds).2 := by
  induction ds generalizing s last with
  | nil => exact run
  | cons d ds ih => exact ih (run.deed d)

/-- Every set publishes its last generation. -/
def AllPublished (s : Engine) (last : Generations) : Prop :=
  ∀ k, (s.sets k).Published (last k)

theorem AllPublished.same {s s' : Engine} {last : Generations} (all : AllPublished s last)
    (same : SameSets s s') : AllPublished s' last :=
  fun k => by rw [same k]; exact all k

theorem AllPublished.withSets {s : Engine} {last : Generations} (all : AllPublished s last)
    {k : SetKind} {f : Family k.dialect} {g : Nat → Option (Generation k.dialect)}
    (published : f.Published g) :
    AllPublished (s.withSets k f) (Function.update last k g) := by
  intro k'
  by_cases same : k' = k
  · subst same
    rw [sets_withSets, Function.update_self]
    exact published
  · rw [sets_withSets_other s f same, Function.update_of_ne same]
    exact all k'

theorem AllPublished.compose {s : Engine} {last : Generations} (all : AllPublished s last)
    (k : SetKind) (c : Composite) : AllPublished (s.compose k c) last := by
  have created := all.withSets ((all k).create c)
  rwa [Function.update_eq_self] at created

theorem AllPublished.rebuilt {s : Engine} {last : Generations} (all : AllPublished s last)
    (k : SetKind) (id : Nat) (reloading : Bool) :
    AllPublished (after (rebuild k.access id reloading) s) (last.rebuilt s k id reloading) := by
  refine AllPublished.same ?_ (sameSets_rebuild s k id reloading)
  unfold Generations.rebuilt
  cases found : s.generation? k id reloading with
  | none => exact all
  | some g => exact all.withSets ((all k).publish found)

theorem AllPublished.deed {s : Engine} {last : Generations} (all : AllPublished s last)
    (d : Deed) : AllPublished (d.apply s) (d.note s last) := by
  cases d with
  | compose k c =>
      have made : after (newComposite k.access c) s = s.compose k c :=
        congrArg Prod.snd (run_newComposite s k c)
      rw [Deed.apply, made]
      exact all.compose k c
  | build k r => exact ((all.compose k _).rebuilt k _ false).same (sameSets_build s k r)
  | rebuild k id reloading => exact all.rebuilt k id reloading
  | register provider => exact all.same (sameSets_register s provider)
  | unregister tag => exact all.same (sameSets_unregister s tag)
  | release provider => exact all.same (sameSets_release s provider)
  | closeAll => exact all.same (sameSets_closeAll s)
  | dropRegistry => exact all.same (sameSets_dropRegistry s)
  | edit change => exact all.same (sameSets_changeFiles s change)

theorem Run.allPublished {s₀ s : Engine} {last : Generations} (run : Run s₀ s last)
    (fresh : ∀ k, s₀.sets k = {}) : AllPublished s last := by
  induction run with
  | start => exact fun k => by rw [fresh k]; exact .empty
  | deed d _ ih => exact ih.deed d

/-- What the sets of a kind mean. -/
structure Meaning (s : Engine) (last : Generations) (k : SetKind) : Prop where
  /-- A rebuild succeeds exactly if it finds a generation. -/
  succeeds : ∀ id reloading, ((rebuild k.access id reloading).run.run s).1.isOk =
    (s.generation? k id reloading).isSome
  /-- A generation has the rules of the files as they are, and for each tag the set of
  the provider that the tag stands for. -/
  finds : ∀ {id reloading g}, s.generation? k id reloading = some g →
    ∃ c, (s.sets k).composites[id]? = some c ∧
      k.dialect.compile c.source s.files = .ok g.table ∧
      List.Forall₂ (fun tag ref => ∃ provider p, s.registry.resolve tag = some provider ∧
        s.providers[provider]? = some p ∧ p.plugin = k.plugin ref) c.sets g.references
  /-- A set matches by the rules of its last generation, or because a set matches now
  that its last generation refers to. -/
  hits : Generation.Acyclic (last k) → ∀ id key,
    ((s.sets k).find id key).isSome = true ↔ ∃ g, last k id = some g ∧
      ((k.dialect.probe key g.table).isSome = true ∨
        ∃ ref ∈ g.references, ((s.sets k).find ref key).isSome = true)
  /-- A group has a member for each tag, and one for the rules if there are any. -/
  size : ∀ {id g c}, last k id = some g → (s.sets k).composites[id]? = some c →
    (s.sets k).groupSize id = c.sets.length + if 0 < k.dialect.size g.table then 1 else 0
  /-- What a set finds when it is rebuilt is matched at once by all sets that lead to
  it. -/
  visible : ∀ {ref reloading g}, s.generation? k ref reloading = some g →
    Generation.Acyclic (last.rebuilt s k ref reloading k) →
    ∀ {id}, Relation.ReflTransGen (Generation.Refers (last k)) id ref →
    ∀ {key}, (k.dialect.probe key g.table).isSome = true →
      ((((Deed.rebuild k ref reloading).apply s).sets k).find id key).isSome = true
  /-- What a tag stands for makes no difference before the next rebuild. -/
  tags : ∀ provider tag, ((Deed.register provider).apply s).sets k = s.sets k ∧
    ((Deed.unregister tag).apply s).sets k = s.sets k

theorem lookupGroup_ok {s : Engine} {k : SetKind} {c : Composite} {tag : String} {ref : Nat}
    (found : s.lookupGroup k.dialect.capability k.access.pick c tag = .ok ref) :
    ∃ provider p, s.registry.resolve tag = some provider ∧
      s.providers[provider]? = some p ∧ p.plugin = k.plugin ref := by
  unfold lookupGroup at found
  split at found
  · cases found
  split at found
  · cases found
  rename_i provider resolved
  split at found
  · rename_i group picked
    obtain rfl : group = ref := Except.ok.inj found
    obtain ⟨plugin, present, offered⟩ := Option.bind_eq_some_iff.mp picked
    obtain ⟨p, provided, rfl⟩ := Option.map_eq_some_iff.mp present
    refine ⟨provider, p, resolved, provided, ?_⟩
    revert offered
    cases k <;> cases p.plugin <;>
      simp [SetKind.access, domainAccess, addressAccess, Plugin.domainGroup?,
        Plugin.addressGroup?, SetKind.plugin, eq_comm]
  · cases found

theorem Generations.rebuilt_some {s : Engine} {k : SetKind} {id : Nat} {reloading : Bool}
    {g : Generation k.dialect} (last : Generations)
    (found : s.generation? k id reloading = some g) :
    last.rebuilt s k id reloading k = Function.update (last k) id (some g) := by
  simp [rebuilt, found]

/-- A hit in new rules is a hit of all sets that lead to them. -/
theorem AllPublished.visible {s : Engine} {last : Generations} {k : SetKind}
    (all : AllPublished s last) {ref : Nat} {reloading : Bool} {g : Generation k.dialect}
    (found : s.generation? k ref reloading = some g)
    (acyclic : Generation.Acyclic (last.rebuilt s k ref reloading k)) {id : Nat}
    (leads : Relation.ReflTransGen (Generation.Refers (last k)) id ref) {key : k.dialect.Key}
    (hit : (k.dialect.probe key g.table).isSome = true) :
    ((((Deed.rebuild k ref reloading).apply s).sets k).find id key).isSome = true := by
  have published := all.rebuilt k ref reloading k
  have matches_ := fun id => published.isSome_find k.emptyMisses acyclic id key
  rw [last.rebuilt_some found] at matches_
  have own := (matches_ ref).mpr ⟨g, Function.update_self .., .inl hit⟩
  -- References on the way are still there, unless the way leads through `ref` itself.
  induction leads using Relation.ReflTransGen.head_induction_on with
  | refl => exact own
  | @head id next refers _ ih =>
      by_cases same : id = ref
      · rw [same]
        exact own
      · obtain ⟨old, last_old, member⟩ := refers
        have kept : Function.update (last k) ref (some g) id = some old := by
          rw [Function.update_of_ne same]
          exact last_old
        exact (matches_ id).mpr ⟨old, kept, .inr ⟨next, member, ih⟩⟩

/-- What every set means after any run. -/
theorem meaning_of_run {s₀ s : Engine} {last : Generations} (fresh : ∀ k, s₀.sets k = {})
    (run : Run s₀ s last) (k : SetKind) : Meaning s last k := by
  have all := run.allPublished fresh
  constructor
  · intro id reloading
    have ran := run_rebuild s k id reloading
    cases found : s.generation? k id reloading with
    | none =>
        simp only [found] at ran
        obtain ⟨e, ran⟩ := ran
        rw [ran]
        rfl
    | some g =>
        simp only [found] at ran
        obtain ⟨summary, s', ran, -⟩ := ran
        rw [ran]
        rfl
  · intro id reloading g found
    obtain ⟨c, composite, compiled, resolved⟩ := Family.generation?_eq_some found
    exact ⟨c, composite, compiled, resolved.imp fun tag ref => lookupGroup_ok⟩
  · exact fun acyclic id key => (all k).isSome_find k.emptyMisses acyclic id key
  · exact fun found composite => (all k).groupSize found composite
  · exact fun found acyclic _ leads _ hit => all.visible found acyclic leads hit
  · exact fun provider tag => ⟨sameSets_register s provider k, sameSets_unregister s tag k⟩

end

open scoped Pattern

/-- A set is built that refers to "p", and then another set takes that tag. -/
def lent : Engine × Generations := deeds {} (fun _ _ => none)
  [.build .domains ⟨"p", ⟨["a.com"], []⟩, [], false, 10, true⟩, .register 0,
    .build .domains ⟨"c", ⟨[], []⟩, ["p"], false, 10, true⟩, .unregister "p",
    .build .domains ⟨"p", ⟨["b.com"], []⟩, [], false, 10, true⟩, .register 2]

/-- The set matches what the first holder of the tag matches, and nothing of the
second one's. -/
theorem meaning_of_lent :
    (∀ k, ({} : Engine).sets k = {}) ∧ Run {} lent.1 lent.2 ∧
      Generation.Acyclic (lent.2 .domains) ∧ (lent.1.registry.resolve "p") = some 2 ∧
      ((lent.1.sets .domains).find 1 "a.com").isSome = true ∧
      ((lent.1.sets .domains).find 1 "b.com").isSome = false ∧
      (lent.1.sets .domains).groupSize 1 = 1 := by
  have fresh : ∀ k, ({} : Engine).sets k = {} := by
    intro k
    cases k <;> rfl
  have run : Run {} lent.1 lent.2 := Run.start.deeds _
  have references : (lent.2 .domains 0).map (·.references) = some [] ∧
      (lent.2 .domains 1).map (·.references) = some [0] ∧
      (lent.2 .domains 2).map (·.references) = some [] := by decide +kernel
  have first : ((lent.2 .domains 0).map fun g => ((Dialect.domains.probe "a.com" g.table).isSome,
      (Dialect.domains.probe "b.com" g.table).isSome)) = some (true, false) := by decide +kernel
  have second : ((lent.2 .domains 1).map fun g =>
      (Dialect.domains.size g.table, (Dialect.domains.probe "b.com" g.table).isSome)) =
        some (0, false) := by decide +kernel
  have tags : ((lent.1.sets .domains).composites[1]?).map (·.sets) = some ["p"] := by
    decide +kernel
  have few : (lent.1.sets .domains).composites.length = 3 := by decide +kernel
  obtain ⟨g₀, found₀, none₀⟩ := Option.map_eq_some_iff.mp references.1
  obtain ⟨g₁, found₁, one₁⟩ := Option.map_eq_some_iff.mp references.2.1
  obtain ⟨g₂, found₂, none₂⟩ := Option.map_eq_some_iff.mp references.2.2
  rw [found₀] at first
  rw [found₁] at second
  simp only [Option.map_some, Option.some.injEq, Prod.mk.injEq] at first second
  have below : ∀ id ref, Generation.Refers (lent.2 .domains) id ref → ref < id := by
    rintro id ref ⟨g, found, member⟩
    obtain ⟨c, composite, -⟩ := (run.allPublished fresh .domains).composite found
    have inside := (List.getElem?_eq_some_iff.mp composite).1
    rw [few] at inside
    obtain rfl | rfl | rfl : id = 0 ∨ id = 1 ∨ id = 2 := by omega
    · simp_all
    · simp_all
    · simp_all
  have acyclic : Generation.Acyclic (lent.2 .domains) := by
    intro id leads
    have descends : ∀ {ref}, Relation.TransGen (Generation.Refers (lent.2 .domains)) id ref →
        ref < id := by
      intro ref leads
      induction leads with
      | single refers => exact below _ _ refers
      | tail _ refers ih => exact (below _ _ refers).trans ih
    exact lt_irrefl id (descends leads)
  have meaning := meaning_of_run fresh run .domains
  refine ⟨fresh, run, acyclic, by decide +kernel, ?_, ?_, ?_⟩
  · have own := (meaning.hits acyclic 0 "a.com").mpr ⟨g₀, found₀, .inl first.1⟩
    exact (meaning.hits acyclic 1 "a.com").mpr ⟨g₁, found₁, .inr ⟨0, by simp [one₁], own⟩⟩
  · rw [Bool.eq_false_iff, ne_eq, meaning.hits acyclic 1 "b.com"]
    rintro ⟨g, found, hit⟩
    obtain rfl : g₁ = g := Option.some.inj (found₁.symm.trans found)
    rw [second.2, one₁] at hit
    obtain ⟨ref, member, hit⟩ := hit.resolve_left (by simp)
    obtain rfl := List.mem_singleton.mp member
    obtain ⟨g, found, hit⟩ := (meaning.hits acyclic 0 "b.com").mp hit
    obtain rfl : g₀ = g := Option.some.inj (found₀.symm.trans found)
    rw [first.2, none₀] at hit
    simp at hit
  · obtain ⟨c, composite, sets⟩ := Option.map_eq_some_iff.mp tags
    have empty : SetKind.domains.dialect.size g₁.table = 0 := second.1
    rw [meaning.size found₁ composite, sets, empty]
    rfl

end LiveRules.Engine
