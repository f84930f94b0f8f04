import LiveRules.Proofs.Rules.Composite

/-!
# Cycles of generations

A rebuild gives a set other references. It closes a cycle exactly if one of them
leads back to the set that is rebuilt.
-/
namespace LiveRules

namespace Generation
variable {D : Dialect} {last : Nat → Option (Generation D)} {id : Nat} {g : Generation D}

theorem refers_update {x y : Nat} :
    Refers (Function.update last id (some g)) x y ↔
      if x = id then y ∈ g.references else Refers last x y := by
  unfold Refers
  rw [Function.update_apply]
  split <;> simp

/-- A way to the set that is rebuilt does not need that set's own references. -/
theorem leads_update {x : Nat} (leads : Relation.ReflTransGen (Refers last) x id) :
    Relation.ReflTransGen (Refers (Function.update last id (some g))) x id := by
  induction leads using Relation.ReflTransGen.head_induction_on with
  | refl => exact .refl
  | @head x next refers _ ih =>
      by_cases same : x = id
      · rw [same]
      · exact .head (refers_update.mpr (by rwa [if_neg same])) ih

/-- A way that is there after a rebuild was there before, or leads through the set
that was rebuilt. -/
theorem leads_or_through {x y : Nat}
    (leads : Relation.TransGen (Refers (Function.update last id (some g))) x y) :
    Relation.TransGen (Refers last) x y ∨
      (Relation.ReflTransGen (Refers (Function.update last id (some g))) x id ∧
        Relation.TransGen (Refers (Function.update last id (some g))) id y) := by
  induction leads with
  | @single y refers =>
      by_cases same : x = id
      · subst same
        exact .inr ⟨.refl, .single refers⟩
      · exact .inl (.single (by rwa [refers_update, if_neg same] at refers))
  | @tail y z before refers ih =>
      rcases ih with old | ⟨first, second⟩
      · by_cases same : y = id
        · subst same
          exact .inr ⟨before.to_reflTransGen, .single refers⟩
        · exact .inl (old.tail (by rwa [refers_update, if_neg same] at refers))
      · exact .inr ⟨first, second.tail refers⟩

/-- A rebuild closes a cycle exactly if it finds a reference that leads back. -/
theorem acyclic_update (acyclic : Acyclic last) :
    Acyclic (Function.update last id (some g)) ↔
      ∀ ref ∈ g.references, ¬ Relation.ReflTransGen (Refers last) ref id := by
  constructor
  · intro still ref listed leads
    have first : Refers (Function.update last id (some g)) id ref :=
      refers_update.mpr (by rwa [if_pos rfl])
    exact still id (.head' first (leads_update leads))
  · intro apart
    -- A way from a new reference never comes to the set itself, so it is an old one.
    have old {ref : Nat} (away : ¬ Relation.ReflTransGen (Refers last) ref id) {y : Nat}
        (leads : Relation.ReflTransGen (Refers (Function.update last id (some g))) ref y) :
        Relation.ReflTransGen (Refers last) ref y := by
      induction leads with
      | refl => exact .refl
      | @tail y z _ refers ih =>
          have other : y ≠ id := by
            rintro rfl
            exact away ih
          exact ih.tail (by rwa [refers_update, if_neg other] at refers)
    have around : ¬ Relation.TransGen (Refers (Function.update last id (some g))) id id := by
      intro cycle
      obtain ⟨ref, refers, back⟩ := Relation.TransGen.head'_iff.mp cycle
      rw [refers_update, if_pos rfl] at refers
      exact apart ref refers (old (apart ref refers) back)
    intro x cycle
    rcases leads_or_through cycle with before | ⟨first, second⟩
    · exact acyclic x before
    · exact around (second.trans_left first)

/-- References that only lead down do not lead back. -/
theorem acyclic_of_lt (below : ∀ id ref, Refers last id ref →
    (∃ from_, Refers last from_ id) → ref < id) : Acyclic last := by
  have descends {x y : Nat} (leads : Relation.TransGen (Refers last) x y)
      (reached : ∃ from_, Refers last from_ x) : y < x := by
    induction leads with
    | single refers => exact below _ _ refers reached
    | tail before refers ih =>
        obtain ⟨previous, -, refers'⟩ := Relation.TransGen.tail'_iff.mp before
        exact (below _ _ refers ⟨previous, refers'⟩).trans ih
  intro id cycle
  obtain ⟨previous, -, refers⟩ := Relation.TransGen.tail'_iff.mp cycle
  exact lt_irrefl id (descends cycle ⟨previous, refers⟩)

end Generation

end LiveRules
