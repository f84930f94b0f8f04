import LiveRules.Proofs.Rules.Groups
import LiveRules.Rules.Composite
import Mathlib.Data.List.Forall2
import Mathlib.Logic.Function.Basic

/-!
# Generations of composite sets

A generation is what one successful rebuild of a composite found: the table that
it compiled and the groups that its tags stood for. What a composite publishes is
its last generation and nothing else. A table without rules is not published, but
it would have no hit anyway.
-/
namespace LiveRules

/-- Nothing is found in a compiled table without rules. -/
def Dialect.EmptyMisses (D : Dialect) : Prop :=
  ∀ {source : RuleSource} {files : Files.Tree} {table : D.Table},
    D.compile source files = .ok table → D.size table = 0 → ∀ key, D.probe key table = none

namespace Dialect

theorem emptyMisses_domains [PatternLanguage] : domains.EmptyMisses := by
  intro source files table _ empty key
  simp only [DomainMatcher.size, Nat.add_eq_zero_iff, List.length_eq_zero_iff] at empty
  obtain ⟨⟨⟨full, domain⟩, keyword⟩, regexp⟩ := empty
  simp [DomainMatcher.find?, DomainMatcher.lookup, full, domain, keyword, regexp]

theorem emptyMisses_addresses : addresses.EmptyMisses := by
  intro source files table compiled empty key
  simp only [compileAddresses] at compiled
  cases rules : source.compile files AddressRules.add [] with
  | error cause => simp [rules, Except.map] at compiled
  | ok nets =>
      simp only [rules, Except.map, Except.ok.injEq] at compiled
      subst compiled
      obtain rfl : nets = [] := List.length_eq_zero_iff.mp empty
      have none : Net.AddressSet.ofList [] = {} := by
        simp [Net.AddressSet.ofList, Net.AddressSet.v4Nets, Net.AddressSet.v6Nets,
          Net.Subnet.aggregate, Net.Subnet.outermost]
      have misses : Net.AddressSet.contains {} key = false := by
        unfold Net.AddressSet.contains
        split
        · rfl
        · split <;> rfl
      simp [none, misses]

end Dialect

/-- What one rebuild of a composite found. -/
structure Generation (D : Dialect) where
  table : D.Table
  /-- The groups that the tags stood for, in their order. -/
  references : List Nat

namespace Generation
variable {D : Dialect}

/-- The last rebuild of `id` found a reference to `ref`. -/
def Refers (last : Nat → Option (Generation D)) (id ref : Nat) : Prop :=
  ∃ g, last id = some g ∧ ref ∈ g.references

/-- No set leads back to itself. -/
def Acyclic (last : Nat → Option (Generation D)) : Prop :=
  ∀ id, ¬ Relation.TransGen (Refers last) id id

end Generation

namespace Family
variable {D : Dialect}

/-- Of tables only the compiled one is published, and it is if it has rules. -/
theorem table_mem_members {table own : D.Table} {references : List Nat} :
    Member.table own ∈ members table references ↔ own = table ∧ 0 < D.size table := by
  unfold members
  split
  · rename_i none
    simp [none]
  · rename_i some
    simp [Nat.pos_of_ne_zero some]

theorem table_mem_self {table : D.Table} {references : List Nat} :
    Member.table table ∈ members table references ↔ 0 < D.size table :=
  table_mem_members.trans (and_iff_right rfl)

/-- What a rebuild finds now, if it succeeds. -/
def generation? (f : Family D) (id : Nat) (files : Files.Tree)
    (lookup : Composite → String → Except ProviderError Nat) (reloading : Bool) :
    Option (Generation D) :=
  match f.composites[id]? with
  | none => none
  | some c =>
      match compile (D := D) c files reloading, resolve (lookup c) c.sets with
      | .ok table, .ok references => some ⟨table, references⟩
      | _, _ => none

/-- The family after a rebuild that found `g`. -/
def publish (f : Family D) (id : Nat) (g : Generation D) : Family D :=
  { f with groups := f.groups.publish id (members g.table g.references) }

/-- A rebuild succeeds if it finds a generation, and that is what it publishes. -/
theorem rebuild_eq (f : Family D) (id : Nat) (files : Files.Tree)
    (lookup : Composite → String → Except ProviderError Nat) (reloading : Bool) :
    (f.rebuild id files lookup reloading).toOption.map (·.2.2) =
      (f.generation? id files lookup reloading).map (f.publish id) := by
  unfold rebuild generation?
  cases f.composites[id]? with
  | none => rfl
  | some c =>
      dsimp only
      cases compile (D := D) c files reloading with
      | error e => rfl
      | ok table =>
          dsimp only
          cases resolve (lookup c) c.sets <;> rfl

theorem compile_ok {c : Composite} {files : Files.Tree} {reloading : Bool} {table : D.Table}
    (compiled : compile c files reloading = .ok table) : D.compile c.source files = .ok table := by
  unfold compile at compiled
  cases rules : D.compile c.source files with
  | error e => simp [rules] at compiled
  | ok found =>
      simp only [rules] at compiled
      split at compiled
      · cases compiled
      · exact congrArg _ (Except.ok.inj compiled)

theorem resolve_ok {lookup : String → Except ProviderError Nat} {tags : List String}
    {references : List Nat} (resolved : resolve lookup tags = .ok references) :
    List.Forall₂ (fun tag ref => lookup tag = .ok ref) tags references := by
  induction tags generalizing references with
  | nil =>
      simp only [resolve, Except.ok.injEq] at resolved
      exact resolved ▸ .nil
  | cons tag tags ih =>
      unfold resolve at resolved
      cases found : lookup tag with
      | error e => simp [found] at resolved
      | ok group =>
          cases others : resolve lookup tags with
          | error e => simp [found, others, Except.map] at resolved
          | ok rest =>
              simp only [found, others, Except.map, Except.ok.injEq] at resolved
              exact resolved ▸ .cons found (ih others)

/-- A generation has the rules of the composite's source as they were, and for each
tag the group that the tag stood for. -/
theorem generation?_eq_some {f : Family D} {id : Nat} {files : Files.Tree}
    {lookup : Composite → String → Except ProviderError Nat} {reloading : Bool}
    {g : Generation D} (found : f.generation? id files lookup reloading = some g) :
    ∃ c, f.composites[id]? = some c ∧ D.compile c.source files = .ok g.table ∧
      List.Forall₂ (fun tag ref => lookup c tag = .ok ref) c.sets g.references := by
  unfold generation? at found
  cases composite : f.composites[id]? with
  | none => simp [composite] at found
  | some c =>
      cases compiled : compile (D := D) c files reloading with
      | error e => simp [composite, compiled] at found
      | ok table =>
          cases resolved : resolve (lookup c) c.sets with
          | error e => simp [composite, compiled, resolved] at found
          | ok references =>
              simp only [composite, compiled, resolved, Option.some.injEq] at found
              subst found
              exact ⟨c, rfl, compile_ok compiled, resolve_ok resolved⟩

/-- The last generation of every composite, and nothing else, is published. -/
structure Published (f : Family D) (last : Nat → Option (Generation D)) : Prop where
  length : f.groups.published.length = f.composites.length
  shown : ∀ id, f.groups.snapshot id =
    match last id with
    | none => []
    | some g => members g.table g.references
  composite : ∀ {id g}, last id = some g → ∃ c, f.composites[id]? = some c ∧
    g.references.length = c.sets.length ∧ ∃ files, D.compile c.source files = .ok g.table

namespace Published
variable {f : Family D} {last : Nat → Option (Generation D)}

theorem empty : Published ({} : Family D) fun _ => none where
  length := rfl
  shown := fun _ => rfl
  composite := nofun

theorem create (published : Published f last) (c : Composite) : Published (f.create c).2 last where
  length := by simp [Family.create, Groups.create, published.length]
  shown := fun id => by
    rw [← published.shown id]
    exact Groups.snapshot_create id
  composite := fun {id g} found => by
    obtain ⟨old, composite, rest⟩ := published.composite found
    refine ⟨old, ?_, rest⟩
    have inside := (List.getElem?_eq_some_iff.mp composite).1
    rw [Family.create, List.getElem?_append_left inside, composite]

theorem publish (published : Published f last) {id : Nat} {files : Files.Tree}
    {lookup : Composite → String → Except ProviderError Nat} {reloading : Bool}
    {g : Generation D} (found : f.generation? id files lookup reloading = some g) :
    Published (f.publish id g) (Function.update last id (some g)) := by
  obtain ⟨c, composite, compiled, resolved⟩ := generation?_eq_some found
  have inside : id < f.groups.published.length := by
    rw [published.length]
    exact (List.getElem?_eq_some_iff.mp composite).1
  constructor
  · simp only [Family.publish, Groups.publish, List.length_set]
    exact published.length
  · intro other
    simp only [Family.publish, Groups.snapshot_publish inside, Function.update_apply]
    split
    · rfl
    · exact published.shown other
  · intro other g' last'
    rw [Function.update_apply] at last'
    split at last'
    · rename_i same
      obtain rfl : g = g' := by simpa using last'
      exact ⟨c, by rw [same]; exact composite, resolved.length_eq.symm, files, compiled⟩
    · exact published.composite last'

theorem groupSize (published : Published f last) {id : Nat} {g : Generation D} {c : Composite}
    (found : last id = some g) (composite : f.composites[id]? = some c) :
    f.groupSize id = c.sets.length + if 0 < D.size g.table then 1 else 0 := by
  obtain ⟨c', composite', references, -⟩ := published.composite found
  obtain rfl : c = c' := Option.some.inj (composite.symm.trans composite')
  have shown := published.shown id
  rw [found] at shown
  rw [Family.groupSize, shown, ← references]
  by_cases empty : D.size g.table = 0
  · simp [members, empty]
  · simp [members, empty, Nat.pos_of_ne_zero empty]

theorem refers (published : Published f last) (id ref : Nat) :
    f.groups.Refers id ref ↔ Generation.Refers last id ref := by
  rw [Groups.Refers, Generation.Refers, published.shown id]
  cases last id with
  | none => simp
  | some g =>
      simp only [members, List.mem_append, List.mem_map, Member.group.injEq, exists_eq_right,
        Option.some.injEq, exists_eq_left']
      split <;> simp

theorem acyclic (published : Published f last) (acyclic : Generation.Acyclic last) :
    f.groups.Acyclic :=
  fun id leads => acyclic id
    (Relation.TransGen.mono (fun id ref => (published.refers id ref).mp) id id leads)

/-- A table without rules is not published, but has no hit anyway. -/
theorem own (published : Published f last) (misses : D.EmptyMisses) (id : Nat) (key : D.Key) :
    (∃ table, .table table ∈ f.groups.snapshot id ∧ (D.probe key table).isSome = true) ↔
      ∃ g, last id = some g ∧ (D.probe key g.table).isSome = true := by
  rw [published.shown id]
  cases found : last id with
  | none => simp
  | some g =>
      obtain ⟨c, -, -, files, compiled⟩ := published.composite found
      simp only [members, List.mem_append, List.mem_map, reduceCtorEq, and_false, exists_false,
        or_false, Option.some.injEq, exists_eq_left']
      split
      · rename_i empty
        simp [misses compiled empty key]
      · simp

/-- A set has a hit in its own rules, or where one of the sets has it that it
refers to. -/
theorem isSome_find (published : Published f last) (misses : D.EmptyMisses)
    (acyclic : Generation.Acyclic last) (id : Nat) (key : D.Key) :
    (f.find id key).isSome = true ↔ ∃ g, last id = some g ∧
      ((D.probe key g.table).isSome = true ∨
        ∃ ref ∈ g.references, (f.find ref key).isSome = true) := by
  have hits := fun id => @Groups.isSome_find _ _ _ (D.probe key) (published.acyclic acyclic) id
  have own := published.own misses id key
  have refers := published.refers id
  simp only [Family.find, hits]
  constructor
  · intro hit
    cases hit with
    | own table hit =>
        obtain ⟨g, found, hit⟩ := own.mp ⟨_, table, hit⟩
        exact ⟨g, found, .inl hit⟩
    | reference reference deeper =>
        obtain ⟨g, found, member⟩ := (refers _).mp reference
        exact ⟨g, found, .inr ⟨_, member, deeper⟩⟩
  · rintro ⟨g, found, hit | ⟨ref, member, deeper⟩⟩
    · obtain ⟨table, shown, hit⟩ := own.mpr ⟨g, found, hit⟩
      exact .own shown hit
    · exact .reference ((refers ref).mpr ⟨g, found, member⟩) deeper

end Published

end Family
end LiveRules
