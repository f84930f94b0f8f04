import LiveRules.Rules.Groups
import Mathlib.Data.List.Chain
import Mathlib.Data.List.Perm.Subperm

/-!
# Looking up in groups

A lookup follows references only to a certain depth. If the references have no
cycle that loses nothing: a lookup that gives up has followed a chain with more
groups in it than there are.
-/
namespace LiveRules

/-- The group that a member refers to. -/
def Member.group? {L : Type} : Member L → Option Nat
  | table _ => none
  | group id => some id

namespace Groups
variable {L V : Type} {gs : Groups L} {probe : L → Option V}

theorem snapshot_create (id : Nat) : gs.create.snapshot id = gs.snapshot id := by
  simp only [snapshot, create, List.getD_eq_getElem?_getD]
  by_cases inside : id < gs.published.length
  · rw [List.getElem?_append_left inside]
  · rw [List.getElem?_append_right (by omega), List.getElem?_eq_none (l := gs.published) (by omega)]
    cases id - gs.published.length <;> rfl

theorem snapshot_publish {id : Nat} (inside : id < gs.published.length)
    (members : List (Member L)) (other : Nat) :
    (gs.publish id members).snapshot other =
      if other = id then members else gs.snapshot other := by
  simp only [snapshot, publish, List.getD_eq_getElem?_getD, List.getElem?_set]
  split <;> simp_all [eq_comm]

/-- What one member answers, with references followed at most `depth` deep. -/
def look (gs : Groups L) (probe : L → Option V) : (depth : Nat) → Member L → Option V
  | _, .table content => probe content
  | 0, .group _ => none
  | depth + 1, .group id => gs.findWithin probe depth (gs.snapshot id)

@[simp] theorem look_table (depth : Nat) (content : L) :
    gs.look probe depth (.table content) = probe content := by
  cases depth <;> rfl

theorem findWithin_eq (depth : Nat) (members : List (Member L)) :
    gs.findWithin probe depth members = members.findSome? (gs.look probe depth) := by
  induction members with
  | nil => rw [findWithin, List.findSome?_nil]
  | cons m rest ih =>
      rw [List.findSome?_cons]
      cases m with
      | table content =>
          rw [findWithin, look_table]
          cases probe content with
          | some v => rfl
          | none => exact ih
      | group id =>
          cases depth with
          | zero =>
              rw [findWithin, look]
              exact ih
          | succ depth =>
              rw [findWithin, look]
              cases findWithin gs probe depth (gs.snapshot id) with
              | some v => rfl
              | none => exact ih

/-- A group publishes a reference to another one. -/
def Refers (gs : Groups L) (id ref : Nat) : Prop := .group ref ∈ gs.snapshot id

/-- A table of the group, or of one that it leads to, has a hit. -/
inductive Hits (gs : Groups L) (probe : L → Option V) : Nat → Prop
  | own {id : Nat} {content : L} :
      .table content ∈ gs.snapshot id → (probe content).isSome = true → Hits gs probe id
  | reference {id ref : Nat} : gs.Refers id ref → Hits gs probe ref → Hits gs probe id

theorem hits_of_findWithin {depth id : Nat}
    (found : (gs.findWithin probe depth (gs.snapshot id)).isSome = true) :
    Hits gs probe id := by
  induction depth generalizing id with
  | zero =>
      rw [findWithin_eq, List.findSome?_isSome_iff] at found
      obtain ⟨m, hm, hit⟩ := found
      cases m with
      | table content => exact .own hm (by simpa using hit)
      | group ref => cases hit
  | succ depth ih =>
      rw [findWithin_eq, List.findSome?_isSome_iff] at found
      obtain ⟨m, hm, hit⟩ := found
      cases m with
      | table content => exact .own hm (by simpa using hit)
      | group ref => exact .reference hm (ih hit)

/-- A hit that a lookup misses is behind a reference. -/
theorem reference_of_miss {depth id : Nat} (hits : Hits gs probe id)
    (miss : gs.findWithin probe depth (gs.snapshot id) = none) :
    ∃ ref, gs.Refers id ref ∧ Hits gs probe ref := by
  cases hits with
  | own table hit =>
      rw [findWithin_eq, List.findSome?_eq_none_iff] at miss
      have none := miss _ table
      rw [look_table] at none
      simp [none] at hit
  | reference refers deeper => exact ⟨_, refers, deeper⟩

/-- A lookup that misses a hit has followed a chain to its depth. -/
theorem chain_of_miss {depth id : Nat} (hits : Hits gs probe id)
    (miss : gs.findWithin probe depth (gs.snapshot id) = none) :
    ∃ chain, chain.length = depth + 1 ∧ List.IsChain gs.Refers (id :: chain) ∧
      ∀ x ∈ id :: chain, Hits gs probe x := by
  induction depth generalizing id with
  | zero =>
      obtain ⟨ref, refers, deeper⟩ := reference_of_miss hits miss
      exact ⟨[ref], rfl, by simpa using refers, by simp [hits, deeper]⟩
  | succ depth ih =>
      obtain ⟨ref, refers, deeper⟩ := reference_of_miss hits miss
      rw [findWithin_eq, List.findSome?_eq_none_iff] at miss
      obtain ⟨chain, length, linked, all⟩ := ih deeper (miss _ refers)
      refine ⟨ref :: chain, by simp [length], .cons_cons refers linked, ?_⟩
      intro x hx
      rcases List.mem_cons.mp hx with rfl | hx
      · exact hits
      · exact all x hx

theorem Hits.lt {id : Nat} (hits : Hits gs probe id) : id < gs.published.length := by
  have some : gs.snapshot id ≠ [] := by
    cases hits with
    | own table => exact List.ne_nil_of_mem table
    | reference refers => exact List.ne_nil_of_mem refers
  by_contra outside
  refine some ?_
  rw [snapshot, List.getD_eq_getElem?_getD, List.getElem?_eq_none (by omega)]
  rfl

/-- No group leads back to itself. -/
def Acyclic (gs : Groups L) : Prop := ∀ id, ¬ Relation.TransGen gs.Refers id id

/-- What a group refers to, in order. -/
def links (gs : Groups L) (id : Nat) : List Nat := (gs.snapshot id).filterMap Member.group?

theorem mem_links {id ref : Nat} : ref ∈ gs.links id ↔ gs.Refers id ref := by
  rw [links, List.mem_filterMap, Refers]
  constructor
  · rintro ⟨m, listed, same⟩
    cases m with
    | table content => cases same
    | group other =>
        obtain rfl := Option.some.inj same
        exact listed
  · intro refers
    exact ⟨_, refers, rfl⟩

/-- References that only lead down come to an end. -/
theorem acyclic_of_lt (below : ∀ id, ∀ ref ∈ gs.links id, ref < id) : gs.Acyclic := by
  have descends {x y : Nat} (leads : Relation.TransGen gs.Refers x y) : y < x := by
    induction leads with
    | single refers => exact below _ _ (mem_links.mpr refers)
    | tail _ refers ih => exact (below _ _ (mem_links.mpr refers)).trans ih
  exact fun id cycle => lt_irrefl id (descends cycle)

theorem Acyclic.nodup (acyclic : gs.Acyclic) {chain : List Nat}
    (linked : List.IsChain gs.Refers chain) : chain.Nodup := by
  have connected : List.IsChain (Relation.TransGen gs.Refers) chain :=
    linked.imp fun _ _ refers => .single refers
  refine connected.pairwise.imp ?_
  rintro x y leads rfl
  exact acyclic x leads

/-- Without a cycle a lookup finds a hit wherever there is one. -/
theorem isSome_find (acyclic : gs.Acyclic) (id : Nat) :
    (gs.find probe id).isSome = true ↔ Hits gs probe id := by
  constructor
  · exact hits_of_findWithin
  · intro hits
    by_contra nothing
    have miss : gs.find probe id = none := by simpa using nothing
    obtain ⟨chain, length, linked, all⟩ := chain_of_miss hits miss
    -- The chain has no group twice, so it is not longer than all groups together.
    have few : (id :: chain).length ≤ (List.range gs.published.length).length := by
      refine ((acyclic.nodup linked).subperm fun x hx => ?_).length_le
      exact List.mem_range.mpr (all x hx).lt
    rw [List.length_range, List.length_cons, length] at few
    omega

end Groups
end LiveRules
