import LiveRules.Proofs.Net.Aggregation

/-!
# Searching by halving

Where the entries that satisfy a condition come first, halving finds how many there
are. In sorted disjoint subnets the one before that place is the last that starts at or
before an address, so a search that halves the list and looks at this one entry agrees
with one that looks at all of them.
-/
namespace LiveRules.Net

section Halving
variable {α : Type} {p : α → Bool} {xs before after : List α}

/-- Halves the places from `low` to `high`, of which those below the one sought satisfy
`p` and the others do not. -/
def halve (p : α → Bool) (xs : List α) (low high : Nat) : Nat :=
  if low < high then
    let middle := low + (high - low) / 2
    if xs[middle]?.any p then halve p xs (middle + 1) high else halve p xs low middle
  else low
  termination_by high - low

/-- The number of entries before the first one that does not satisfy `p`, provided that
none after it does. -/
def partitionPoint (p : α → Bool) (xs : List α) : Nat := halve p xs 0 xs.length

/-- The place sought stays between the bounds. -/
theorem halve_append (holds : ∀ x ∈ before, p x = true) (fails : ∀ x ∈ after, p x = false)
    (low high : Nat) (reached : low ≤ before.length) (ahead : before.length ≤ high) :
    halve p (before ++ after) low high = before.length := by
  fun_induction halve p (before ++ after) low high with
  | case1 low high proper middle below ih =>
      refine ih ?_ ahead
      by_contra past
      rw [List.getElem?_append_right (by omega)] at below
      obtain ⟨x, found, holdsToo⟩ := (Option.any_eq_true _ _).mp below
      simp [fails x (List.mem_of_getElem? found)] at holdsToo
  | case2 low high proper middle above ih =>
      refine ih reached ?_
      by_contra early
      rw [List.getElem?_append_left (by omega), List.getElem?_eq_getElem (by omega),
        Option.any_some] at above
      exact above (holds _ (List.getElem_mem _))
  | case3 low high met => omega

theorem partitionPoint_append (holds : ∀ x ∈ before, p x = true)
    (fails : ∀ x ∈ after, p x = false) : partitionPoint p (before ++ after) = before.length :=
  halve_append holds fails _ _ (Nat.zero_le _) (by simp)

/-- Once an entry fails a condition that passes to earlier ones, all later ones do. -/
theorem forall_dropWhile (earlier : xs.Pairwise fun x y => p y = true → p x = true) :
    ∀ x ∈ xs.dropWhile p, p x = false := by
  induction xs with
  | nil => nofun
  | cons x xs ih =>
      have ⟨first, rest⟩ := List.pairwise_cons.mp earlier
      cases here : p x with
      | true =>
          rw [List.dropWhile_cons_of_pos here]
          exact ih rest
      | false =>
          rw [List.dropWhile_cons_of_neg (by simp [here]), List.forall_mem_cons]
          refine ⟨here, fun y member => ?_⟩
          rw [← Bool.not_eq_true]
          intro holds
          simp [first y member holds] at here

theorem partitionPoint_eq (earlier : xs.Pairwise fun x y => p y = true → p x = true) :
    partitionPoint p xs = (xs.takeWhile p).length := by
  have holds : ∀ x ∈ xs.takeWhile p, p x = true := fun _ => List.mem_takeWhile_imp
  have point := partitionPoint_append holds (forall_dropWhile earlier)
  rwa [List.takeWhile_append_dropWhile] at point

end Halving

namespace Subnet
variable {w : Nat} {n : Subnet w} {a : BitVec w} {ns : List (Subnet w)}

/-- Looks only at the subnet before the first one that starts after an address. -/
def probe (a : BitVec w) (ns : List (Subnet w)) : Bool :=
  let next := partitionPoint (fun n => decide (n.first ≤ a.toNat)) ns
  decide (0 < next) && ns[next - 1]?.any (·.covers a)

/-- Among sorted subnets, those that start at or before an address come first. -/
theorem probe_eq_search (sorted : ns.Pairwise Before) : probe a ns = search a ns := by
  have earlier : ns.Pairwise fun m n =>
      decide (n.first ≤ a.toNat) = true → decide (m.first ≤ a.toNat) = true := by
    refine sorted.imp fun before => ?_
    have := before.lt
    simp only [decide_eq_true_eq]
    omega
  obtain ⟨rest, whole⟩ := List.takeWhile_prefix (l := ns) fun n => decide (n.first ≤ a.toNat)
  rw [probe, partitionPoint_eq earlier, search, lastUpTo]
  generalize ns.takeWhile (fun n => decide (n.first ≤ a.toNat)) = upTo at whole
  rcases List.eq_nil_or_concat upTo with rfl | ⟨before, last, rfl⟩
  · rfl
  · simp [← whole]

/-- An address is covered if its first bits are those of the base. -/
theorem covers_iff_bits :
    n.covers a = true ↔ ∀ i < n.length, a.getMsbD i = n.base.getMsbD i := by
  have free : n.free + n.length = w := Nat.sub_add_cancel n.length_le
  rw [covers_iff, fixed, fixed]
  constructor
  · intro same i fixed
    have bit := congrArg (Nat.testBit · (n.length - 1 - i)) same
    simp only [Nat.testBit_shiftRight, BitVec.testBit_toNat] at bit
    rw [BitVec.getMsbD_eq_getLsbD, BitVec.getMsbD_eq_getLsbD,
      show w - 1 - i = n.free + (n.length - 1 - i) by omega, bit]
  · intro same
    refine Nat.eq_of_testBit_eq fun j => ?_
    simp only [Nat.testBit_shiftRight, BitVec.testBit_toNat]
    by_cases fixed : j < n.length
    · have bit := same (n.length - 1 - j) (by omega)
      rwa [BitVec.getMsbD_eq_getLsbD, BitVec.getMsbD_eq_getLsbD,
        show w - 1 - (n.length - 1 - j) = n.free + j by omega,
        decide_eq_true (by omega : n.length - 1 - j < w), Bool.true_and, Bool.true_and] at bit
    · rw [BitVec.getLsbD_of_ge _ _ (by omega), BitVec.getLsbD_of_ge _ _ (by omega)]

end Subnet

end LiveRules.Net
