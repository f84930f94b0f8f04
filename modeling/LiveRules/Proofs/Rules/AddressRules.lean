import LiveRules.Proofs.Net.Aggregation
import LiveRules.Proofs.Rules.Records

/-!
# Which addresses an address rule finds

A rule of an address set finds the addresses that its subnet covers. The subnets of
all rules are aggregated once they are known, and it does not matter how.
-/
namespace LiveRules
open Net

/-- The subnet of a rule covers the address that an address is looked up as. -/
def AddressRules.Hits (rule : String) (a : Address) : Prop :=
  ∃ n, network rule = .ok n ∧ n.covers a.plain = true

theorem AddressRules.add_eq_ok {ns ns' : List Network} {rule : String} :
    add ns rule = .ok ns' ↔ ∃ n, network rule = .ok n ∧ ns ++ [n] = ns' := by
  unfold add
  cases network rule <;> simp [Except.map]

/-- An address rule is accepted for itself. -/
theorem AddressRules.isOk_add (ns : List Network) (rule : String) :
    (add ns rule).isOk = (network rule).isOk := by
  unfold add
  cases network rule <;> rfl

theorem AddressRules.steady {ns : List Network} (rule : String) (_ : True) :
    (add ns rule).isOk = (add [] rule).isOk := by
  rw [isOk_add, isOk_add]

theorem AddressRules.covers_add {ns ns' : List Network} {rule : String} (a : Address)
    (added : add ns rule = .ok ns') : (∃ n ∈ ns', n.covers a.plain = true) ↔
      (∃ n ∈ ns, n.covers a.plain = true) ∨ Hits rule a := by
  obtain ⟨n, said, rfl⟩ := add_eq_ok.mp added
  simp only [Hits, said, List.mem_append, List.mem_singleton, or_and_right, exists_or,
    exists_eq_left, Except.ok.injEq, exists_eq_left']

namespace Net.Aggregation

/-- Address sets, if subnets are aggregated in a certain way. -/
@[reducible] def dialect (g : Aggregation) : Dialect :=
  { Dialect.addresses with
    compile := fun source files => (source.compile files AddressRules.add []).map g.collect }

/-- This is how address sets are compiled. -/
theorem dialect_outermost : outermost.dialect = Dialect.addresses := rfl

def recipe (g : Aggregation) : Recipe g.dialect where
  State := List Network
  start := []
  add := AddressRules.add
  finish := g.collect
  compile_eq _ _ := rfl
  Valid _ := True
  valid_start := trivial
  valid_add _ _ := trivial
  steady := AddressRules.steady

theorem recipe_add (g : Aggregation) (ns : List Network) (rule : String) :
    g.recipe.add ns rule = AddressRules.add ns rule := by
  simp only [recipe]

theorem probe_collect (g : Aggregation) (ns : List Network) (a : Address) :
    (g.dialect.probe a (g.recipe.finish ns)).isSome = true ↔
      ∃ n ∈ ns, n.covers a.plain = true := by
  rw [← g.contains_collect ns a]
  change (if (g.collect ns).contains a = true then some () else none).isSome = true ↔ _
  cases (g.collect ns).contains a <;> simp

/-- Address sets are looked up by subnets. -/
def lookup (g : Aggregation) : g.recipe.Lookup where
  Hits := AddressRules.Hits
  Found (ns : List Network) a := ∃ n ∈ ns, n.covers a.plain = true
  not_found_start _ := by rintro ⟨n, none, -⟩; cases none
  found_add {ns rule ns'} a _ added :=
    AddressRules.covers_add a ((g.recipe_add ns rule).symm.trans added)
  probe_finish ns a := g.probe_collect ns a

end Net.Aggregation
end LiveRules
