import LiveRules.Pattern.Parser
import LiveRules.Proofs.Engine.References
import LiveRules.Proofs.Rules.Lookups

/-!
# When matching ends

A lookup follows references without any bound, so it ends in all cases only if no
set leads back to itself. Building a set never closes a cycle, because nothing can
refer to the new set yet. But the tags of a set are looked up again whenever it is
rebuilt, and one of them may have gone to a set that was built after it and leads
back to it; such a rebuild closes a cycle. As long as no tag changes hands, that
does not happen.
-/
namespace LiveRules.Engine

section
variable [PatternLanguage]

/-- The lookup of a key in a set ends with this answer. -/
def Ends (s : Engine) (k : SetKind) (id : Nat) (key : k.dialect.Key)
    (answer : Option k.dialect.Value) : Prop :=
  Groups.Answers (s.sets k).groups (k.dialect.probe key) ((s.sets k).groups.snapshot id) answer

/-- The deed is a rebuild, and it finds a reference that leads back to the set. -/
def Deed.Closes (s : Engine) (last : Generations) (k : SetKind) (d : Deed) : Prop :=
  ∃ id reloading g, d = .rebuild k id reloading ∧ s.generation? k id reloading = some g ∧
    ∃ ref ∈ g.references, Relation.ReflTransGen (Generation.Refers (last k)) ref id

/-- Which lookups end, and what makes others of them. -/
structure Endings (s₀ s : Engine) (last : Generations) (k : SetKind) : Prop where
  /-- Without a cycle all lookups end. -/
  ends : Generation.Acyclic (last k) → ∀ id key, s.Ends k id key ((s.sets k).find id key)
  /-- There is one answer at most, cycle or not. -/
  answer : ∀ {id key answer}, s.Ends k id key answer → (s.sets k).find id key = answer
  /-- A set that leads to a cycle is searched forever for a key that no table has on the
  way. -/
  endless : ∀ {id ref}, Relation.ReflTransGen (Generation.Refers (last k)) id ref →
    Relation.TransGen (Generation.Refers (last k)) ref ref → ∀ {key},
    (s.sets k).groups.Misses (k.dialect.probe key) id → ∀ answer, ¬ s.Ends k id key answer
  /-- Of all that can be done, only a rebuild closes a cycle, and only if a tag stands
  for a set by now that leads back to the one that is rebuilt. -/
  closes : Generation.Acyclic (last k) → ∀ d : Deed,
    ¬ Generation.Acyclic (d.note s last k) ↔ d.Closes s last k
  /-- No cycle is ever closed if no tag changes hands. -/
  steady : ∀ names, SteadyRun names s₀ s last → Generation.Acyclic (last k)

/-- Nothing refers to a set before it is built, so building it closes no cycle. -/
theorem acyclic_build {s : Engine} {last : Generations} (rooted : Rooted s last) {k : SetKind}
    (acyclic : Generation.Acyclic (last k)) (k' : SetKind) (r : SetRequest) :
    Generation.Acyclic ((Deed.build k' r).note s last k) := by
  by_cases same : k = k'
  · subst same
    cases found : (s.composed k r).generation? k (s.sets k).composites.length false with
    | none =>
        have unchanged : (Deed.build k r).note s last = last := last.rebuilt_none found
        rwa [unchanged]
    | some g =>
        have changed := last.rebuilt_some found
        refine (congrArg Generation.Acyclic changed).mpr ?_
        refine (Generation.acyclic_update acyclic).mpr ?_
        intro ref listed leads
        rcases Relation.ReflTransGen.cases_tail leads with rfl | ⟨previous, -, refers⟩
        · exact lt_irrefl _ (rooted.below_built found _ listed)
        · exact lt_irrefl _ (rooted.referred refers)
  · exact (congrArg Generation.Acyclic (last.rebuilt_other _ _ _ same)).mpr acyclic

theorem cycle_of_rebuild {s : Engine} {last : Generations} {k : SetKind}
    (acyclic : Generation.Acyclic (last k)) (k' : SetKind) (id : Nat) (reloading : Bool) :
    ¬ Generation.Acyclic ((Deed.rebuild k' id reloading).note s last k) ↔
      k' = k ∧ ∃ g, s.generation? k id reloading = some g ∧
        ∃ ref ∈ g.references, Relation.ReflTransGen (Generation.Refers (last k)) ref id := by
  by_cases same : k = k'
  · subst same
    cases found : s.generation? k id reloading with
    | none =>
        have unchanged : (Deed.rebuild k id reloading).note s last = last :=
          last.rebuilt_none found
        simpa [unchanged] using acyclic
    | some g =>
        have changed : (Deed.rebuild k id reloading).note s last k =
            Function.update (last k) id (some g) := last.rebuilt_some found
        rw [changed, Generation.acyclic_update acyclic]
        push Not
        simp
  · have unchanged : (Deed.rebuild k' id reloading).note s last k = last k :=
      last.rebuilt_other s id reloading same
    rw [unchanged]
    exact ⟨fun cyclic => absurd acyclic cyclic, fun closing => absurd closing.1.symm same⟩

/-- What is known after any run about the lookups that end. -/
theorem matching_ends {s₀ s : Engine} {last : Generations} (vacant : Vacant s₀)
    (run : Run s₀ s last) (k : SetKind) : Endings s₀ s last k := by
  have published := run.allPublished vacant.sets k
  have rooted := run.rooted vacant
  constructor
  · intro acyclic id key
    exact (published.acyclic acyclic).answers (k.dialect.probe key) id
  · intro id key answer ends
    exact Groups.find_of_answers ends
  · intro id ref leads cycle key misses answer
    have groups : (s.sets k).groups.Refers = Generation.Refers (last k) := by
      funext id ref
      exact propext (published.refers id ref)
    exact Groups.not_answers_of_cycle misses (groups ▸ leads) (groups ▸ cycle) answer
  · intro acyclic d
    have idle (unchanged : d.note s last = last)
        (other : ∀ id reloading, d ≠ .rebuild k id reloading) :
        ¬ Generation.Acyclic (d.note s last k) ↔ d.Closes s last k := by
      rw [unchanged]
      refine ⟨fun cyclic => absurd acyclic cyclic, ?_⟩
      rintro ⟨id, reloading, g, same, -⟩
      exact absurd same (other id reloading)
    cases d with
    | build k' r =>
        refine ⟨fun cyclic => absurd (acyclic_build rooted acyclic k' r) cyclic, ?_⟩
        rintro ⟨id, reloading, g, same, -⟩
        cases same
    | rebuild k' id reloading =>
        rw [cycle_of_rebuild acyclic, Deed.Closes]
        constructor
        · rintro ⟨rfl, g, found, closing⟩
          exact ⟨id, reloading, g, rfl, found, closing⟩
        · rintro ⟨id', reloading', g, same, found, closing⟩
          cases same
          exact ⟨rfl, g, found, closing⟩
    | _ => exact idle rfl (by simp)
  · intro names steady
    exact (steady.settled vacant).acyclic k

end

open scoped Pattern

/-- A tag goes from the set that another one was built with to a set that refers to
that one. -/
def crossed : Engine × Generations := deeds {} (fun _ _ => none)
  [.build .domains ⟨"a", ⟨["a.com"], []⟩, [], false, 10, true⟩, .register 0,
    .build .domains ⟨"b", ⟨["b.com"], []⟩, ["a"], false, 10, true⟩, .register 1,
    .unregister "a", .release 0,
    .build .domains ⟨"a", ⟨["a.org"], []⟩, ["b"], false, 10, true⟩, .register 2]

/-- When the first set is reloaded, the two refer to each other, and a name that
neither of them has is looked up forever in both. -/
theorem matching_crossed :
    let closed := deeds crossed.1 crossed.2 [.rebuild .domains 1 true]
    Vacant {} ∧ Run {} crossed.1 crossed.2 ∧ Run {} closed.1 closed.2 ∧
      Generation.Acyclic (crossed.2 .domains) ∧
      (Deed.rebuild .domains 1 true).Closes crossed.1 crossed.2 .domains ∧
      (∀ id ∈ [1, 2], ∀ answer, ¬ closed.1.Ends .domains id "c.com" answer) ∧
      closed.1.Ends .domains 1 "b.com" (some ()) := by
  intro closed
  have vacant : Vacant {} := ⟨fun k => by cases k <;> rfl, rfl, rfl⟩
  have before : Run {} crossed.1 crossed.2 := Run.start.deeds _
  have run : Run {} closed.1 closed.2 := before.deeds _
  have acyclic : Generation.Acyclic (crossed.2 .domains) := by
    have references : (crossed.2 .domains 0).map (·.references) = some [] ∧
        (crossed.2 .domains 1).map (·.references) = some [0] ∧
        (crossed.2 .domains 2).map (·.references) = some [1] := by decide +kernel
    have few : (crossed.1.sets .domains).composites.length = 3 := by decide +kernel
    refine Generation.acyclic_of_lt fun id ref refers _ => ?_
    obtain ⟨g, known, listed⟩ := refers
    obtain ⟨c, composite, -⟩ := (before.allPublished vacant.sets .domains).composite known
    have inside := (List.getElem?_eq_some_iff.mp composite).1
    rw [few] at inside
    obtain rfl | rfl | rfl : id = 0 ∨ id = 1 ∨ id = 2 := by omega
    all_goals simp_all
  have leads : Generation.Refers (closed.2 .domains) 1 2 := by
    have found : (closed.2 .domains 1).map (·.references) = some [2] := by decide +kernel
    obtain ⟨g, known, references⟩ := Option.map_eq_some_iff.mp found
    exact ⟨g, known, by simp [references]⟩
  have back : Generation.Refers (closed.2 .domains) 2 1 := by
    have found : (closed.2 .domains 2).map (·.references) = some [1] := by decide +kernel
    obtain ⟨g, known, references⟩ := Option.map_eq_some_iff.mp found
    exact ⟨g, known, by simp [references]⟩
  have misses (id : Nat) :
      (closed.1.sets .domains).groups.Misses (Dialect.domains.probe "c.com") id := by
    have none : ∀ members ∈ (closed.1.sets .domains).groups.published, ∀ m ∈ members,
        m.table?.bind (Dialect.domains.probe "c.com") = none := by decide +kernel
    intro ref _ content listed
    rw [Groups.snapshot, List.getD_eq_getElem?_getD] at listed
    cases published : (closed.1.sets .domains).groups.published[ref]? with
    | none => simp [published] at listed
    | some members =>
        rw [published] at listed
        exact none members (List.mem_of_getElem? published) _ listed
  have hit : ∃ table rest, (closed.1.sets .domains).groups.snapshot 1 = .table table :: rest ∧
      Dialect.domains.probe "b.com" table = some () := by
    have shown : ((closed.1.sets .domains).groups.snapshot 1).head?.bind (fun m =>
        m.table?.bind (Dialect.domains.probe "b.com")) = some () := by decide +kernel
    obtain ⟨m, first, own⟩ := Option.bind_eq_some_iff.mp shown
    obtain ⟨table, same, hit⟩ := Option.bind_eq_some_iff.mp own
    obtain ⟨rest, members⟩ := List.head?_eq_some_iff.mp first
    exact ⟨table, rest, by rw [members, Member.eq_table same], hit⟩
  have cyclic : ¬ Generation.Acyclic (closed.2 .domains) :=
    fun acyclic => acyclic 1 ((Relation.TransGen.single leads).tail back)
  have endings := matching_ends vacant run .domains
  refine ⟨vacant, before, run, acyclic, ?_, fun id listed => ?_, ?_⟩
  · exact ((matching_ends vacant before .domains).closes acyclic _).mp cyclic
  · have around : Relation.TransGen (Generation.Refers (closed.2 .domains)) 1 1 :=
      (Relation.TransGen.single leads).tail back
    have to_it : Relation.ReflTransGen (Generation.Refers (closed.2 .domains)) id 1 := by
      rcases List.mem_pair.mp listed with rfl | rfl
      · exact .refl
      · exact .single back
    exact endings.endless to_it around (misses id)
  · obtain ⟨table, rest, members, hit⟩ := hit
    rw [Ends, members]
    exact .hit hit

end LiveRules.Engine
