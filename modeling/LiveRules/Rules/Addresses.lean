import LiveRules.Net.AddressSet
import LiveRules.Rules.Error

/-!
# Address rules

A rule of an address set is an address or a subnet, with any white space around
it.
-/
namespace LiveRules.AddressRules

/-- The subnet that a rule denotes. A refusal names the rule without the white space
around it. -/
def network (rule : String) : Except RuleError Net.Network :=
  match Net.Network.parse? (Text.trim rule) with
  | some n => .ok n
  | none => .error (.invalid (Text.trim rule) .badNetwork)

/-- Adds one rule, or says why it is refused. -/
def add (rules : List Net.Network) (rule : String) : Except RuleError (List Net.Network) :=
  (network rule).map fun n => rules ++ [n]

end LiveRules.AddressRules
