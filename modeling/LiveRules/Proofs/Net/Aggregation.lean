import LiveRules.Net.AddressSet
import Mathlib.Algebra.Group.Nat.Defs
import Mathlib.Data.List.TakeWhile
import Mathlib.Data.List.Sort

/-!
# Looking addresses up in aggregated subnets

A subnet covers one block of addresses, and two blocks are nested or disjoint. Any
sorted disjoint subnets that cover what others cover may stand for them in a set of
addresses: the one subnet that a search looks at covers an address exactly if any of
them does.
-/
namespace LiveRules.Net

namespace Subnet
variable {w : Nat} {m n : Subnet w} {a : BitVec w}

theorem covers_iff : n.covers a = true ↔ n.fixed a = n.fixed n.base := by
  rw [covers, decide_eq_true_iff]

/-- The numbers that begin with the fixed bits of a subnet. -/
theorem shift_eq_iff (x : Nat) :
    x >>> n.free = n.fixed n.base ↔ n.first ≤ x ∧ x < n.first + 2 ^ n.free := by
  have some : 0 < 2 ^ n.free := Nat.two_pow_pos _
  have block : n.first = n.fixed n.base * 2 ^ n.free := Nat.shiftLeft_eq ..
  rw [Nat.shiftRight_eq_div_pow, Nat.div_eq_iff some, ← block]
  omega

theorem covers_iff_range :
    n.covers a = true ↔ n.first ≤ a.toNat ∧ a.toNat < n.first + 2 ^ n.free := by
  rw [covers_iff, fixed, shift_eq_iff]

theorem covers_base (n : Subnet w) : n.covers n.base = true := covers_iff.mpr rfl

/-- A wider subnet sees only which block of a narrower one an address is in. -/
theorem fixed_of_wider (wider : m.length ≤ n.length) (a : BitVec w) :
    m.fixed a = n.fixed a >>> (m.free - n.free) := by
  have le : n.free ≤ m.free := by unfold free; omega
  rw [fixed, fixed, ← Nat.shiftRight_add, Nat.add_sub_cancel' le]

/-- Of a narrower subnet, a wider one covers all or nothing. -/
theorem covers_of_inside (wider : m.length ≤ n.length) (outer : m.covers n.base = true)
    (inside : n.covers a = true) : m.covers a = true := by
  rw [covers_iff] at outer inside ⊢
  rw [fixed_of_wider wider a, inside, ← fixed_of_wider wider, outer]

theorem first_shift (wider : m.length ≤ n.length) : n.first >>> m.free = m.fixed n.base := by
  have le : n.free ≤ m.free := by unfold free; omega
  rw [fixed_of_wider wider, first, ← Nat.add_sub_cancel' le, Nat.shiftRight_add,
    Nat.shiftLeft_shiftRight, Nat.add_sub_cancel' le]

/-- All addresses of one subnet come before those of the other. -/
def Before (m n : Subnet w) : Prop := m.first + 2 ^ m.free ≤ n.first

theorem Before.lt (before : m.Before n) : m.first < n.first :=
  Nat.lt_of_lt_of_le (Nat.lt_add_of_pos_right (Nat.two_pow_pos _)) before

theorem precedes_iff : m.precedes n = true ↔
    m.first < n.first ∨ m.first = n.first ∧ m.length ≤ n.length := by
  simp [precedes]

/-- A subnet that starts inside one that precedes it lies inside it altogether. -/
theorem before_or_inside (precedes : m.precedes n = true) :
    m.Before n ∨ m.length ≤ n.length ∧ m.covers n.base = true := by
  rw [precedes_iff] at precedes
  by_cases before : m.Before n
  · exact .inl before
  right
  have overlap : n.first < m.first + 2 ^ m.free := by unfold Before at before; omega
  have starts : n.first >>> m.free = m.fixed m.base :=
    (shift_eq_iff _).mpr ⟨by omega, overlap⟩
  by_cases wider : m.length ≤ n.length
  · refine ⟨wider, covers_iff.mpr ?_⟩
    rw [← first_shift wider, starts]
  · -- A wider subnet starts where the narrower one does, and so precedes it.
    have le : m.free ≤ n.free := by unfold free; omega
    have multiple : n.first = (n.first >>> m.free) <<< m.free := by
      rw [first, ← Nat.sub_add_cancel le, Nat.shiftLeft_add, Nat.shiftLeft_shiftRight]
    have same : n.first = m.first := by rw [multiple, starts, first]
    omega

theorem precedes_trans (k m n : Subnet w) (first : k.precedes m = true)
    (second : m.precedes n = true) : k.precedes n = true := by
  rw [precedes_iff] at first second ⊢
  omega

theorem precedes_total (m n : Subnet w) : (m.precedes n || n.precedes m) = true := by
  rw [Bool.or_eq_true, precedes_iff, precedes_iff]
  omega

/-- Sorted disjoint subnets that cover what others cover. -/
structure Aggregates (ns kept : List (Subnet w)) : Prop where
  sorted : kept.Pairwise Before
  same : ∀ a, (∃ n ∈ kept, n.covers a = true) ↔ ∃ n ∈ ns, n.covers a = true

/-- What is kept after `last` comes after it, and what is left out lies inside it or
inside what is kept. -/
theorem outermost_some (last : Subnet w) (ns : List (Subnet w))
    (sorted : (last :: ns).Pairwise fun m n => m.precedes n = true) :
    Aggregates (last :: ns) (last :: outermost (some last) ns) := by
  induction ns generalizing last with
  | nil => exact ⟨by simp [outermost], fun _ => Iff.rfl⟩
  | cons n ns ih =>
      obtain ⟨ahead, rest⟩ := List.pairwise_cons.mp sorted
      rw [outermost]
      split
      · rename_i inner
        have wider : last.length ≤ n.length := by
          rcases before_or_inside (ahead n (by simp)) with before | ⟨wider, -⟩
          · have outer := covers_iff_range.mp inner
            have inner := covers_iff_range.mp n.covers_base
            unfold Before at before
            omega
          · exact wider
        obtain ⟨disjoint, same⟩ := ih last (List.pairwise_cons.mpr
          ⟨fun k hk => ahead k (by simp [hk]), (List.pairwise_cons.mp rest).2⟩)
        refine ⟨disjoint, fun a => ?_⟩
        rw [same]
        simp only [List.exists_mem_cons_iff]
        constructor
        · rintro (here | later)
          · exact .inl here
          · exact .inr (.inr later)
        · rintro (here | inside | later)
          · exact .inl here
          · exact .inl (covers_of_inside wider inner inside)
          · exact .inr later
      · rename_i outer
        have before : last.Before n := by
          rcases before_or_inside (ahead n (by simp)) with before | ⟨-, inner⟩
          · exact before
          · exact absurd inner outer
        obtain ⟨disjoint, same⟩ := ih n rest
        refine ⟨List.pairwise_cons.mpr ⟨?_, disjoint⟩, fun a => ?_⟩
        · intro k hk
          rcases List.mem_cons.mp hk with rfl | hk
          · exact before
          · have later := (List.pairwise_cons.mp disjoint).1 k hk
            exact Nat.le_trans before later.lt.le
        · rw [List.exists_mem_cons_iff, same, List.exists_mem_cons_iff (l := n :: ns)]

theorem aggregates_aggregate (ns : List (Subnet w)) : Aggregates ns (aggregate ns) := by
  have sorted := List.pairwise_mergeSort precedes_trans precedes_total ns
  have members : ∀ a, (∃ n ∈ ns.mergeSort precedes, n.covers a = true) ↔
      ∃ n ∈ ns, n.covers a = true := by simp
  unfold aggregate
  cases list : ns.mergeSort precedes with
  | nil =>
      rw [list] at members
      exact ⟨by simp [outermost], members⟩
  | cons n rest =>
      rw [list] at members sorted
      obtain ⟨disjoint, same⟩ := outermost_some n rest sorted
      exact ⟨disjoint, fun a => (same a).trans (members a)⟩

/-- The last subnet that starts at or before an address is the one that covers it, if
any does. -/
theorem search_iff {ns : List (Subnet w)} (sorted : ns.Pairwise Before) :
    search a ns = true ↔ ∃ n ∈ ns, n.covers a = true := by
  simp only [search, lastUpTo, Option.any_eq_true]
  constructor
  · rintro ⟨n, last, covers⟩
    have member := List.mem_of_getLast? last
    exact ⟨n, (List.takeWhile_sublist _).subset member, covers⟩
  · rintro ⟨n, member, covers⟩
    obtain ⟨before, after, rfl⟩ := List.append_of_mem member
    obtain ⟨-, later, earlier⟩ := List.pairwise_append.mp sorted
    have range := covers_iff_range.mp covers
    have reached : ∀ m ∈ before, m.first ≤ a.toNat := fun m hm =>
      Nat.le_trans (earlier m hm n (by simp)).lt.le range.1
    have passed : after.takeWhile (fun m => decide (m.first ≤ a.toNat)) = [] := by
      cases after with
      | nil => rfl
      | cons k rest =>
          have start : n.first + 2 ^ n.free ≤ k.first :=
            (List.pairwise_cons.mp later).1 k (by simp)
          exact List.takeWhile_cons_of_neg (by simp; omega)
    have upTo : (before ++ n :: after).takeWhile (fun m => decide (m.first ≤ a.toNat)) =
        before ++ [n] := by
      rw [List.takeWhile_append_of_pos (by simpa using reached),
        List.takeWhile_cons_of_pos (by simpa using range.1), passed]
    exact ⟨n, by rw [upTo]; simp, covers⟩

end Subnet

/-- The address that is looked up for one: a mapped version 4 address stands for
another. -/
def Address.plain : Address → Address
  | .v4 a => .v4 a
  | .v6 a =>
      match unmapped? a with
      | some mapped => .v4 mapped
      | none => .v6 a

/-- A way to aggregate the subnets of both versions. -/
structure Aggregation where
  v4 : List (Subnet 32) → List (Subnet 32)
  v6 : List (Subnet 128) → List (Subnet 128)
  aggregates_v4 : ∀ ns, Subnet.Aggregates ns (v4 ns)
  aggregates_v6 : ∀ ns, Subnet.Aggregates ns (v6 ns)

namespace Aggregation

/-- The way in which sets of addresses are made here. -/
def outermost : Aggregation where
  v4 := Subnet.aggregate
  v6 := Subnet.aggregate
  aggregates_v4 := Subnet.aggregates_aggregate
  aggregates_v6 := Subnet.aggregates_aggregate

def collect (g : Aggregation) (ns : List Network) : AddressSet :=
  ⟨g.v4 (AddressSet.v4Nets ns), g.v6 (AddressSet.v6Nets ns), ns.length⟩

/-- The subnets of one version decide about the addresses of that version. -/
theorem search_picked {w : Nat} {pick : Network → Option (Subnet w)} {ns : List Network}
    {kept : List (Subnet w)} (aggregates : Subnet.Aggregates (ns.filterMap pick) kept)
    {a : BitVec w} {address : Address}
    (meant : ∀ n : Network, n.covers address = (pick n).any (·.covers a)) :
    Subnet.search a kept = true ↔ ∃ n ∈ ns, n.covers address = true := by
  rw [Subnet.search_iff aggregates.sorted, aggregates.same]
  simp only [meant, Option.any_eq_true, List.mem_filterMap]
  constructor
  · rintro ⟨m, ⟨n, listed, picked⟩, covers⟩
    exact ⟨n, listed, m, picked, covers⟩
  · rintro ⟨n, listed, m, picked, covers⟩
    exact ⟨m, ⟨n, listed, picked⟩, covers⟩

/-- However it is aggregated, a set has the addresses that its subnets cover. -/
theorem contains_collect (g : Aggregation) (ns : List Network) (a : Address) :
    (g.collect ns).contains a = true ↔ ∃ n ∈ ns, n.covers a.plain = true := by
  have v4 (b : BitVec 32) : Subnet.search b (g.collect ns).v4 = true ↔
      ∃ n ∈ ns, n.covers (.v4 b) = true := by
    refine search_picked (g.aggregates_v4 (AddressSet.v4Nets ns)) fun n => ?_
    cases n <;> rfl
  have v6 (b : BitVec 128) : Subnet.search b (g.collect ns).v6 = true ↔
      ∃ n ∈ ns, n.covers (.v6 b) = true := by
    refine search_picked (g.aggregates_v6 (AddressSet.v6Nets ns)) fun n => ?_
    cases n <;> rfl
  cases a with
  | v4 a => exact v4 a
  | v6 a =>
      simp only [AddressSet.contains, Address.plain]
      cases Address.unmapped? a with
      | some mapped => exact v4 mapped
      | none => exact v6 a

end Aggregation
end LiveRules.Net
