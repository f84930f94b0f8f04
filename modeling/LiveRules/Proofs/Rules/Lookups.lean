import LiveRules.Proofs.Rules.Groups
import Mathlib.Logic.Relation

/-!
# Lookups that end

Nothing bounds a lookup in itself: it follows every reference it comes to, as long
as it has no hit. Where it ends, a lookup that gives up at some depth has the same
answer, and without a cycle it always ends. A lookup that no table answers does not
end in a group that leads to a cycle.
-/
namespace LiveRules

/-- The table of a member that is not a reference. -/
def Member.table? {L : Type} : Member L → Option L
  | table content => some content
  | group _ => none

theorem Member.eq_table {L : Type} {m : Member L} {content : L} (own : m.table? = some content) :
    m = .table content := by
  cases m with
  | table other => rw [Option.some.inj own]
  | group id => cases own

namespace Groups
variable {L V : Type}

/-- The lookup in members ends with this answer, however deep it has to go. -/
inductive Answers (gs : Groups L) (probe : L → Option V) : List (Member L) → Option V → Prop
  | nothing : Answers gs probe [] none
  | hit {content : L} {rest : List (Member L)} {v : V} :
      probe content = some v → Answers gs probe (.table content :: rest) (some v)
  | miss {content : L} {rest : List (Member L)} {r : Option V} :
      probe content = none → Answers gs probe rest r → Answers gs probe (.table content :: rest) r
  | deeper {id : Nat} {rest : List (Member L)} {v : V} :
      Answers gs probe (gs.snapshot id) (some v) → Answers gs probe (.group id :: rest) (some v)
  | past {id : Nat} {rest : List (Member L)} {r : Option V} :
      Answers gs probe (gs.snapshot id) none → Answers gs probe rest r →
      Answers gs probe (.group id :: rest) r

/-- A lookup in the group comes to the reference, because what stands before it has
no hit. -/
def Asks (gs : Groups L) (probe : L → Option V) (id ref : Nat) : Prop :=
  ∃ before rest, gs.snapshot id = before ++ .group ref :: rest ∧ Answers gs probe before none

variable {gs : Groups L} {probe : L → Option V}

theorem Asks.refers {id ref : Nat} (asks : gs.Asks probe id ref) : gs.Refers id ref := by
  obtain ⟨before, rest, members, -⟩ := asks
  rw [Groups.Refers, members]
  simp

theorem Refers.lt {id ref : Nat} (refers : gs.Refers id ref) : id < gs.published.length := by
  by_contra outside
  have nothing : gs.snapshot id = [] := by
    rw [snapshot, List.getD_eq_getElem?_getD, List.getElem?_eq_none (by omega)]
    rfl
  rw [Groups.Refers, nothing] at refers
  simp at refers

theorem Answers.unique {members : List (Member L)} {r r' : Option V}
    (first : Answers gs probe members r) (second : Answers gs probe members r') : r = r' := by
  induction first generalizing r' with
  | nothing => cases second; rfl
  | hit found =>
      cases second with
      | hit again => exact found.symm.trans again
      | miss none => simp [found] at none
  | miss none _ ih =>
      cases second with
      | hit found => simp [none] at found
      | miss _ rest => exact ih rest
  | deeper _ ih =>
      cases second with
      | deeper again => exact ih again
      | past none => exact absurd (ih none) (by simp)
  | past _ _ ih ih' =>
      cases second with
      | deeper found => exact absurd (ih found) (by simp)
      | past _ rest => exact ih' rest

/-- Members answer what a bounded lookup answers, if the groups do that it comes to. -/
theorem answers_members {depth : Nat} {members : List (Member L)}
    (deeper : ∀ before id rest, members = before ++ .group id :: rest →
      Answers gs probe before none → ∃ d, depth = d + 1 ∧
      Answers gs probe (gs.snapshot id) (gs.findWithin probe d (gs.snapshot id))) :
    Answers gs probe members (gs.findWithin probe depth members) := by
  induction members with
  | nil =>
      rw [findWithin]
      exact .nothing
  | cons m rest ih =>
      have others (passed : ∀ {before}, Answers gs probe before none →
          Answers gs probe (m :: before) none) :
          Answers gs probe rest (gs.findWithin probe depth rest) :=
        ih fun before id after split none =>
          deeper (m :: before) id after (by rw [split]; rfl) (passed none)
      cases m with
      | table content =>
          rw [findWithin]
          cases found : probe content with
          | some v => exact .hit found
          | none => exact .miss found (others (.miss found))
      | group id =>
          obtain ⟨d, rfl, answers⟩ := deeper [] id rest rfl .nothing
          rw [findWithin]
          cases found : findWithin gs probe d (gs.snapshot id) with
          | some v =>
              rw [found] at answers
              exact .deeper answers
          | none =>
              rw [found] at answers
              exact .past answers (others (.past answers))

/-- A bounded lookup ends with the answer of an unbounded one where no chain of
references that it comes to is longer than the bound. -/
theorem answers_within {depth id : Nat}
    (short : ∀ chain, List.IsChain (gs.Asks probe) (id :: chain) → chain.length ≤ depth) :
    Answers gs probe (gs.snapshot id) (gs.findWithin probe depth (gs.snapshot id)) := by
  induction depth generalizing id with
  | zero =>
      refine answers_members fun before ref rest members none => ?_
      have one := short [ref] (.cons_cons ⟨before, rest, members, none⟩ (.singleton ref))
      simp at one
  | succ depth ih =>
      refine answers_members fun before ref rest members none => ⟨depth, rfl, ih ?_⟩
      intro chain linked
      have longer := short (ref :: chain) (.cons_cons ⟨before, rest, members, none⟩ linked)
      simpa using longer

theorem lt_of_mem_chain {id : Nat} {chain : List Nat}
    (linked : List.IsChain gs.Refers (id :: chain)) :
    ∀ x ∈ (id :: chain).dropLast, x < gs.published.length := by
  induction chain generalizing id with
  | nil => simp
  | cons next chain ih =>
      obtain ⟨refers, rest⟩ := List.isChain_cons_cons.mp linked
      intro x hx
      rw [List.dropLast_cons_cons] at hx
      rcases List.mem_cons.mp hx with rfl | hx
      · exact refers.lt
      · exact ih rest x hx

/-- All groups of a chain but the last one refer to something, so a chain without
repetitions has at most one more group than there are. -/
theorem chain_le {id : Nat} {chain : List Nat} (linked : List.IsChain gs.Refers (id :: chain))
    (distinct : (id :: chain).Nodup) : chain.length ≤ gs.published.length := by
  have distinct := distinct.sublist (List.dropLast_sublist _)
  have inside : (id :: chain).dropLast ⊆ List.range gs.published.length :=
    fun x hx => List.mem_range.mpr (lt_of_mem_chain linked x hx)
  simpa using (distinct.subperm inside).length_le

/-- Without a cycle every lookup ends, with the answer of `find`. -/
theorem Acyclic.answers (acyclic : gs.Acyclic) (probe : L → Option V) (id : Nat) :
    Answers gs probe (gs.snapshot id) (gs.find probe id) := by
  refine answers_within fun chain linked => ?_
  have refers := linked.imp fun _ _ => Asks.refers
  exact chain_le refers (acyclic.nodup refers)

/-- A lookup that ends has come to the end of all references that it came to. -/
theorem Answers.acc_asks {members : List (Member L)} {r : Option V}
    (answers : Answers gs probe members r) {before rest : List (Member L)} {ref : Nat}
    (split : members = before ++ .group ref :: rest) (passed : Answers gs probe before none) :
    Acc (fun a b => gs.Asks probe b a) ref := by
  have acc_of {id : Nat} (below : ∀ {before rest : List (Member L)} {ref : Nat},
      gs.snapshot id = before ++ .group ref :: rest → Answers gs probe before none →
      Acc (fun a b => gs.Asks probe b a) ref) : Acc (fun a b => gs.Asks probe b a) id :=
    Acc.intro id fun _ ⟨_, _, members, passed⟩ => below members passed
  induction answers generalizing before rest ref with
  | nothing => simp at split
  | hit found =>
      cases passed with
      | nothing => simp at split
      | miss none =>
          simp only [List.cons_append, List.cons.injEq, Member.table.injEq] at split
          simp [split.1, none] at found
      | past => simp at split
  | miss _ _ ih =>
      cases passed with
      | nothing => simp at split
      | miss _ passed => exact ih (List.cons.inj split).2 passed
      | past => simp at split
  | deeper found ih =>
      cases passed with
      | nothing =>
          obtain ⟨rfl, -⟩ : _ = ref ∧ _ = rest := by simpa using split
          exact acc_of ih
      | miss => simp at split
      | past none =>
          simp only [List.cons_append, List.cons.injEq, Member.group.injEq] at split
          exact absurd (found.unique (split.1 ▸ none)) (by simp)
  | past _ _ ih ih' =>
      cases passed with
      | nothing =>
          obtain ⟨rfl, -⟩ : _ = ref ∧ _ = rest := by simpa using split
          exact acc_of ih
      | miss => simp at split
      | past _ passed => exact ih' (List.cons.inj split).2 passed

/-- Where a relation comes to an end there is no cycle to be led to. -/
theorem not_cycle_of_acc {step : Nat → Nat → Prop} {id ref : Nat}
    (ends : Acc (fun a b => step b a) id) (leads : Relation.ReflTransGen step id ref) :
    ¬ Relation.TransGen step ref ref := by
  induction ends generalizing ref with
  | intro id _ ih =>
      intro cycle
      rcases Relation.ReflTransGen.cases_head leads with rfl | ⟨next, refers, leads⟩
      · obtain ⟨next, refers, back⟩ := Relation.TransGen.head'_iff.mp cycle
        exact ih next refers back cycle
      · exact ih next refers leads cycle

/-- Whenever a lookup ends, be there a cycle or not, `find` has its answer. -/
theorem find_of_answers {id : Nat} {r : Option V}
    (answers : Answers gs probe (gs.snapshot id) r) : gs.find probe id = r := by
  have ends : Acc (fun a b => gs.Asks probe b a) id :=
    Acc.intro id fun _ ⟨_, _, members, passed⟩ => answers.acc_asks members passed
  have distinct {chain : List Nat} (linked : List.IsChain (gs.Asks probe) (id :: chain)) :
      (id :: chain).Nodup := by
    have connected : List.IsChain (Relation.TransGen (gs.Asks probe)) (id :: chain) :=
      linked.imp fun _ _ asks => .single asks
    have reached : ∀ x ∈ id :: chain, Relation.ReflTransGen (gs.Asks probe) id x := by
      intro x hx
      rcases List.mem_cons.mp hx with rfl | hx
      · exact .refl
      · exact ((List.pairwise_cons.mp connected.pairwise).1 x hx).to_reflTransGen
    refine connected.pairwise.imp_of_mem ?_
    rintro x y hx - leads rfl
    exact not_cycle_of_acc ends (reached x hx) leads
  refine Answers.unique (answers_within fun chain linked => ?_) answers
  exact chain_le (linked.imp fun _ _ => Asks.refers) (distinct linked)

/-- No table that the group leads to has a hit. -/
def Misses (gs : Groups L) (probe : L → Option V) (id : Nat) : Prop :=
  ∀ ref, Relation.ReflTransGen gs.Refers id ref → ∀ content,
    .table content ∈ gs.snapshot ref → probe content = none

theorem Misses.refers {id ref : Nat} (misses : gs.Misses probe id) (refers : gs.Refers id ref) :
    gs.Misses probe ref :=
  fun _ leads => misses _ (.head refers leads)

/-- A lookup without a hit that ends has come to the end of all references. -/
theorem Answers.acc_refers {members : List (Member L)} {r : Option V}
    (answers : Answers gs probe members r) {whole : Nat} (misses : gs.Misses probe whole)
    (within : members <:+ gs.snapshot whole) :
    r = none ∧ ∀ ref, .group ref ∈ members → Acc (fun a b => gs.Refers b a) ref := by
  induction answers generalizing whole with
  | nothing => simp
  | @hit content rest v found =>
      simp [misses whole .refl content (within.subset List.mem_cons_self)] at found
  | miss none _ ih =>
      have others := ih misses ((List.suffix_cons _ _).trans within)
      simpa using others
  | @deeper id rest v _ ih =>
      have refers : gs.Refers whole id := within.subset List.mem_cons_self
      exact absurd (ih (misses.refers refers) List.suffix_rfl).1 (by simp)
  | @past id rest r _ _ ih ih' =>
      have refers : gs.Refers whole id := within.subset List.mem_cons_self
      have below := (ih (misses.refers refers) List.suffix_rfl).2
      have others := ih' misses ((List.suffix_cons _ _).trans within)
      refine ⟨others.1, fun ref listed => ?_⟩
      rcases List.mem_cons.mp listed with same | listed
      · obtain rfl := Member.group.inj same
        exact Acc.intro ref fun next refers => below next refers
      · exact others.2 ref listed

/-- A lookup that no table answers does not end on a cycle, nor on the way to one. -/
theorem not_answers_of_cycle {id ref : Nat} (misses : gs.Misses probe id)
    (leads : Relation.ReflTransGen gs.Refers id ref) (cycle : Relation.TransGen gs.Refers ref ref)
    (r : Option V) : ¬ Answers gs probe (gs.snapshot id) r := by
  intro answers
  have below := (answers.acc_refers misses List.suffix_rfl).2
  exact not_cycle_of_acc (Acc.intro id fun next refers => below next refers) leads cycle

end Groups
end LiveRules
